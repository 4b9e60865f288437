/-
**Parses: what forms are read from.**

The reader turns lexemes into forms and forgets where they stood.  A *parse* is a form that still
knows: a scalar with the extent of its lexeme, or a collection with the extents of its delimiters
around the parses of its items.  The lexemes of a parse can be written down again from it, and only
the evenness of maps is not built in.

This gives a description of the reader that does not mention its stack: a text has the forms of
those parses whose lexemes, one parse after another, are the lexemes of the text.  Since a list of
lexemes has at most one list of parses, it makes sense to speak of *the* extent of any node of a
form that was read.

Main definitions:

* `EdnSpans.Extent`, `EdnSpans.Parse` — a form with the extents of all its lexemes;
* `EdnSpans.Parse.form`, `EdnSpans.Parse.lexemes`, `EdnSpans.Parse.extent` — what was read, what
  from, and where;
* `EdnSpans.Parse.Paired` — the items of every map come in pairs;
* `EdnSpans.Parses` — **the parses of a text**;
* `EdnSpans.LexemeStream.read` — what is read from the lexemes of a text.

Main results:

* `EdnSpans.readForms_eq_ok_iff` — **the forms of a text are those of its parses**, and it has forms
  exactly if it has parses;
* `EdnSpans.Parses.unique` — a text has at most one list of parses.
-/
import EdnSpans.Proofs.Token.Run
import EdnSpans.Reader.Basic

set_option relaxedAutoImplicit false
set_option autoImplicit false

namespace EdnSpans

/-! ### Parses -/

/-- Where something begins and ends. -/
structure Extent where
  /-- The position before its first character. -/
  start : Position
  /-- The position after its last character. -/
  stop : Position
  deriving DecidableEq, Repr

/-- The lexeme of a token with the given extent. -/
def Extent.lexeme (e : Extent) (token : Token) : Lexeme := ⟨token, e.start, e.stop⟩

/-- A form with the extents of all its lexemes. -/
inductive Parse
  | leaf (value : Scalar) (extent : Extent)
  | branch (kind : Kind) (opening : Extent) (items : List Parse) (closing : Extent)
  deriving Repr

namespace Parse

/-- Induction over a parse, with the induction hypothesis for every item. -/
theorem induct {motive : Parse → Prop} (leaf : ∀ s e, motive (.leaf s e))
    (branch : ∀ k o items c, (∀ p ∈ items, motive p) → motive (.branch k o items c)) :
    ∀ p, motive p
  | .leaf s e => leaf s e
  | .branch k o items c => branch k o items c (go items)
where
  go : ∀ items : List Parse, ∀ p ∈ items, motive p
  | [], _, h => nomatch h
  | q :: qs, p, h => by
      rcases List.mem_cons.1 h with h | h
      · exact h ▸ induct leaf branch q
      · exact go qs p h

/-- From the first lexeme to the last one. -/
def extent : Parse → Extent
  | .leaf _ e => e
  | .branch _ o _ c => ⟨o.start, c.stop⟩

mutual

/-- The form that was read. -/
def form : Parse → Form
  | .leaf s _ => .atom s none
  | .branch k _ items _ => .node k (formAll items) none

/-- The forms that were read. -/
def formAll : List Parse → List Form
  | [] => []
  | p :: ps => form p :: formAll ps

end

mutual

/-- The lexemes from which it was read. -/
def lexemes : Parse → List Lexeme
  | .leaf s e => [e.lexeme (.scalar s)]
  | .branch k o items c =>
      o.lexeme (.opening k) :: (lexemesAll items ++ [c.lexeme (.closing k.closer)])

/-- The lexemes from which several forms were read. -/
def lexemesAll : List Parse → List Lexeme
  | [] => []
  | p :: ps => lexemes p ++ lexemesAll ps

end

mutual

/-- The items of every map come in pairs. -/
def Paired : Parse → Prop
  | .leaf _ _ => True
  | .branch k _ items _ => (k = .map → items.length % 2 = 0) ∧ PairedAll items

/-- The items of every map in the list come in pairs. -/
def PairedAll : List Parse → Prop
  | [] => True
  | p :: ps => Paired p ∧ PairedAll ps

end

theorem formAll_eq_map (ps : List Parse) : formAll ps = ps.map form := by
  induction ps with
  | nil => rfl
  | cons p ps ih => rw [formAll, ih, List.map_cons]

theorem lexemesAll_eq_flatMap (ps : List Parse) : lexemesAll ps = ps.flatMap lexemes := by
  induction ps with
  | nil => rfl
  | cons p ps ih => rw [lexemesAll, ih, List.flatMap_cons]

theorem pairedAll_iff (ps : List Parse) : PairedAll ps ↔ ∀ p ∈ ps, p.Paired := by
  induction ps with
  | nil => simp [PairedAll]
  | cons p ps ih => simp [PairedAll, ih]

@[simp] theorem form_leaf (s : Scalar) (e : Extent) : (leaf s e).form = .atom s none := rfl

@[simp] theorem form_branch (k : Kind) (o c : Extent) (items : List Parse) :
    (branch k o items c).form = .node k (items.map form) none := by
  rw [form, formAll_eq_map]

theorem setSpan_form (p : Parse) : p.form.setSpan none = p.form := by cases p <;> rfl

@[simp] theorem lexemes_leaf (s : Scalar) (e : Extent) :
    (leaf s e).lexemes = [e.lexeme (.scalar s)] := rfl

@[simp] theorem lexemes_branch (k : Kind) (o c : Extent) (items : List Parse) :
    (branch k o items c).lexemes
      = o.lexeme (.opening k) :: (items.flatMap lexemes ++ [c.lexeme (.closing k.closer)]) := by
  rw [lexemes, lexemesAll_eq_flatMap]

@[simp] theorem paired_leaf (s : Scalar) (e : Extent) : (leaf s e).Paired := trivial

@[simp] theorem paired_branch (k : Kind) (o c : Extent) (items : List Parse) :
    (branch k o items c).Paired ↔ (k = .map → items.length % 2 = 0) ∧ ∀ p ∈ items, p.Paired := by
  rw [Paired, pairedAll_iff]

/-- The lexemes of a parse begin where it begins, and no closing delimiter is the first. -/
theorem lexemes_eq_cons (p : Parse) :
    ∃ l ls, p.lexemes = l :: ls ∧ l.start = p.extent.start
      ∧ ∀ closer, l.token ≠ .closing closer := by
  cases p with
  | leaf s e => exact ⟨_, _, rfl, rfl, by simp [Extent.lexeme]⟩
  | branch k o items c => exact ⟨_, _, lexemes_branch k o c items, rfl, by simp [Extent.lexeme]⟩

theorem lexemes_ne_nil (p : Parse) : p.lexemes ≠ [] := by
  obtain ⟨l, ls, hl, -⟩ := p.lexemes_eq_cons
  simp [hl]

/-- The last lexeme of a parse ends where it ends. -/
theorem stop_of_lexemes {p : Parse} {ls : List Lexeme} {l : Lexeme} (h : p.lexemes = ls ++ [l]) :
    p.extent.stop = l.stop := by
  cases p with
  | leaf s e =>
      rw [lexemes_leaf, ← List.nil_append [e.lexeme _]] at h
      obtain ⟨-, e⟩ := List.append_inj' h rfl
      obtain rfl := List.singleton_inj.1 e
      rfl
  | branch k o items c =>
      rw [lexemes_branch, ← List.cons_append] at h
      obtain ⟨-, e⟩ := List.append_inj' h rfl
      obtain rfl := List.singleton_inj.1 e
      rfl

/-- The top-level form of a parse of the given text. -/
def top (t : Text) (p : Parse) : TopForm :=
  let seed := Span.seed (Text.slice t p.extent.start.offset p.extent.stop.offset)
    p.extent.start.line p.extent.start.offset
  ⟨(p.form.attach seed).form, seed⟩

end Parse

/-- The parses of a text: their lexemes, one parse after another, are the lexemes of the text, in
which nothing is rejected. -/
structure Parses (t : Text) (firstLine : Nat) (ps : List Parse) : Prop where
  stream : LexemeStream.ofText t firstLine = ⟨ps.flatMap Parse.lexemes, none⟩
  paired : ∀ p ∈ ps, p.Paired

/-! ### What is parsed is read -/

/-- What the reader does after a move, with the given lexemes ahead and perhaps a rejection behind
them. -/
def Move.resume (rejection : Option Rejection) (stop : Position) (rest : List Lexeme) :
    Move → TreeReading
  | .complete form => ⟨.ok (form, stop), rest⟩
  | .fault why => ⟨.error why, rest⟩
  | .pending top below =>
      match rest with
      | [] => ⟨.error (.unclosed top.kind top.place), []⟩
      | l :: rest => readTree rejection (top :: below) l rest

/-- A lexeme makes its move **once the next one is known**. -/
theorem readTree_eq_resume {rejection : Option Rejection} {rest : List Lexeme}
    (hready : rejection = none ∨ rest ≠ []) (stack : List Frame) (l : Lexeme) :
    readTree rejection stack l rest = (Move.of stack l).resume rejection l.stop rest := by
  cases rest with
  | nil =>
      obtain rfl : rejection = none := by simpa using hready
      rw [readTree]
      cases Move.of stack l <;> rfl
  | cons l' rest =>
      rw [readTree]
      cases Move.of stack l <;> rfl

theorem Move.resume_pending_cons (top : Frame) (below : List Frame) (stop : Position) (l : Lexeme)
    (rest : List Lexeme) :
    (Move.pending top below).resume none stop (l :: rest) = readTree none (top :: below) l rest :=
  rfl

/-- The move of the lexeme that closes a collection whose items have been read. -/
theorem Move.of_closing {k : Kind} {o c : Extent} {items : List Parse}
    (hp : (Parse.branch k o items c).Paired) (place : Place) (below : List Frame) :
    Move.of (⟨k, place, (items.map Parse.form).reverse⟩ :: below) (c.lexeme (.closing k.closer))
      = Move.deliver (Parse.branch k o items c).form below := by
  have heven : ¬(k = .map ∧ (items.map Parse.form).reverse.length % 2 = 1) := by
    rintro ⟨hk, hodd⟩
    have := ((Parse.paired_branch k o c items).1 hp).1 hk
    simp at hodd
    omega
  simp only [Move.of, Extent.lexeme, if_true, Move.close, if_neg heven, List.reverse_reverse,
    Parse.form_branch]

/-- The lexemes of a parse are read as its form, whatever collections are open and whatever lexemes
follow. -/
def Parse.ReadAsForm (p : Parse) : Prop :=
  ∀ (l : Lexeme) (ls : List Lexeme), p.lexemes = l :: ls →
    ∀ (stack : List Frame) (rest : List Lexeme),
      readTree none stack l (ls ++ rest)
        = (Move.deliver p.form stack).resume none p.extent.stop rest

/-- The items of a collection are **pushed on it, one after another**. -/
theorem Move.resume_items {items : List Parse} (ih : ∀ p ∈ items, p.ReadAsForm) (k : Kind)
    (place : Place) (read : List Form) (below : List Frame) (stop : Position)
    (rest : List Lexeme) :
    (Move.pending ⟨k, place, read⟩ below).resume none stop (items.flatMap Parse.lexemes ++ rest)
      = (Move.pending ⟨k, place, (items.map Parse.form).reverse ++ read⟩ below).resume none stop
          rest := by
  induction items generalizing read stop with
  | nil => rfl
  | cons q qs ihqs =>
      obtain ⟨l, ls, hl, -⟩ := q.lexemes_eq_cons
      have hq := ih q (List.mem_cons_self ..) l ls hl
      have hqs := ihqs (fun p hp => ih p (List.mem_cons_of_mem _ hp)) (q.form :: read)
        q.extent.stop
      rw [List.flatMap_cons, hl, List.append_assoc, List.cons_append, resume_pending_cons, hq,
        Move.deliver, hqs]
      simp [Move.resume]

/-- What is parsed **is read**: the items between the moves of the two delimiters. -/
theorem Parse.readAsForm {p : Parse} (hp : p.Paired) : p.ReadAsForm := by
  induction p using Parse.induct with
  | leaf s e =>
      intro l ls hl stack rest
      obtain ⟨rfl, rfl⟩ := List.cons.inj hl
      rw [List.nil_append, readTree_eq_resume (.inl rfl)]
      rfl
  | branch k o items c ih =>
      intro l ls hl stack rest
      have hitems := ((Parse.paired_branch k o c items).1 hp).2
      rw [Parse.lexemes_branch] at hl
      obtain ⟨rfl, rfl⟩ := List.cons.inj hl
      have hopen : Move.of stack (o.lexeme (.opening k))
          = .pending ⟨k, o.start.toPlace, []⟩ stack := rfl
      rw [readTree_eq_resume (.inl rfl), hopen, List.append_assoc,
        Move.resume_items (fun q hq => ih q hq (hitems q hq)), List.append_nil,
        List.singleton_append, Move.resume_pending_cons, readTree_eq_resume (.inl rfl),
        Move.of_closing hp]
      rfl

/-- A rejection behind the lexemes is met **only together with the last of them**. -/
theorem readTree_eq_of_rest {stack : List Frame} {l : Lexeme} {rest : List Lexeme}
    (h : (readTree none stack l rest).rest ≠ []) (rejection : Option Rejection) :
    readTree rejection stack l rest = readTree none stack l rest := by
  induction rest generalizing stack l with
  | nil =>
      have hnil := length_rest_readTree none stack l []
      exact absurd (List.eq_nil_of_length_eq_zero (Nat.le_zero.1 hnil)) h
  | cons l' rest ih =>
      rw [readTree] at h
      rw [readTree, readTree]
      split
      · rfl
      · rfl
      · next e =>
          rw [e] at h
          exact ih h

theorem readTree_eq_rejected {stack : List Frame} {l : Lexeme} {rest : List Lexeme}
    (h : (readTree none stack l rest).rest = []) (r : Rejection) :
    readTree (some r) stack l rest = ⟨.error (.rejected r), []⟩ := by
  induction rest generalizing stack l with
  | nil => rfl
  | cons l' rest ih =>
      rw [readTree] at h
      rw [readTree]
      split
      · next e =>
          rw [e] at h
          simp at h
      · next e =>
          rw [e] at h
          simp at h
      · next e =>
          rw [e] at h
          exact ih h

namespace Reader

variable {r r' : Reader}

theorem readAll_of_none (h : r.readForm = (.ok none, r')) : r.readAll = .ok [] := by
  rw [readAll]
  split
  all_goals simp_all

theorem readAll_of_some {top : TopForm} (h : r.readForm = (.ok (some top), r')) :
    r.readAll = r'.readAll.map (top :: ·) := by
  rw [readAll]
  split
  all_goals simp_all

theorem readAll_of_error {why : ReadFault} (h : r.readForm = (.error why, r')) :
    r.readAll = .error why := by
  rw [readAll]
  split
  all_goals simp_all

/-- The lexemes of a parse in front of others are read as its form, unless a rejection follows them
at once. -/
theorem readForm_lexemes {p : Parse} {rest : List Lexeme} (hp : p.Paired)
    (hr : r.rejection = none ∨ rest ≠ []) (hpending : r.pending = p.lexemes ++ rest) :
    r.readForm = (.ok (some (p.top r.text)), { r with pending := rest }) := by
  obtain ⟨l, ls, hl, hstart, -⟩ := p.lexemes_eq_cons
  rw [hl, List.cons_append] at hpending
  have hnone : readTree none [] l (ls ++ rest) = ⟨.ok (p.form, p.extent.stop), rest⟩ :=
    Parse.readAsForm hp l ls hl [] rest
  have hread : readTree r.rejection [] l (ls ++ rest) = readTree none [] l (ls ++ rest) := by
    rcases hr with hr | hr
    · rw [hr]
    · exact readTree_eq_of_rest (by rwa [hnone]) _
  simp only [readForm, hpending, hread, hnone]
  simp [Except.map, topForm, Parse.top, hstart]

theorem readForm_rejected {p : Parse} {x : Rejection} (hp : p.Paired)
    (hr : r.rejection = some x) (hpending : r.pending = p.lexemes) :
    r.readForm = (.error (.rejected x), { r with pending := [] }) := by
  obtain ⟨l, ls, hl, -⟩ := p.lexemes_eq_cons
  rw [hl] at hpending
  have hnone : readTree none [] l ls = ⟨.ok (p.form, p.extent.stop), []⟩ := by
    rw [← List.append_nil ls]
    exact Parse.readAsForm hp l ls hl [] []
  have hread := readTree_eq_rejected (by rw [hnone]) x
  simp only [readForm, hpending, hr, hread]
  rfl

/-- The lexemes of parses in front of others are **read as their forms**, and then the others are
read. -/
theorem readAll_append {ps : List Parse} {rest : List Lexeme} (hps : ∀ p ∈ ps, p.Paired)
    (hr : r.rejection = none ∨ rest ≠ [])
    (hpending : r.pending = ps.flatMap Parse.lexemes ++ rest) :
    r.readAll
      = ({ r with pending := rest } : Reader).readAll.map (ps.map (Parse.top r.text) ++ ·) := by
  induction ps generalizing r with
  | nil =>
      obtain ⟨t, pending, rejection⟩ := r
      obtain rfl : pending = rest := hpending
      cases (Reader.mk t pending rejection).readAll <;> rfl
  | cons p ps ih =>
      rw [List.flatMap_cons, List.append_assoc] at hpending
      have hmore : r.rejection = none ∨ ps.flatMap Parse.lexemes ++ rest ≠ [] := by
        rcases hr with hr | hr
        · exact .inl hr
        · exact .inr (by simp [hr])
      have hform := readForm_lexemes (hps p (List.mem_cons_self ..)) hmore hpending
      have hrest := ih (r := { r with pending := ps.flatMap Parse.lexemes ++ rest })
        (fun q hq => hps q (List.mem_cons_of_mem _ hq)) hr rfl
      rw [readAll_of_some hform, hrest]
      cases ({ r with pending := rest } : Reader).readAll <;> rfl

theorem readAll_lexemes {ps : List Parse} (hps : ∀ p ∈ ps, p.Paired) (hr : r.rejection = none)
    (hpending : r.pending = ps.flatMap Parse.lexemes) :
    r.readAll = .ok (ps.map (Parse.top r.text)) := by
  rw [readAll_append hps (.inl hr) (hpending.trans (List.append_nil _).symm),
    readAll_of_none (r := { r with pending := [] }) rfl]
  simp [Except.map]

/-- A rejection behind the last form is reported **in place of that form**. -/
theorem readAll_rejected {ps : List Parse} {x : Rejection} (hps : ∀ p ∈ ps, p.Paired)
    (hne : ps ≠ []) (hr : r.rejection = some x)
    (hpending : r.pending = ps.flatMap Parse.lexemes) :
    r.readAll = .error (.rejected x) := by
  obtain ⟨qs, p, rfl⟩ : ∃ qs p, ps = qs ++ [p] :=
    ⟨ps.dropLast, ps.getLast hne, (List.dropLast_concat_getLast hne).symm⟩
  have hp : p.Paired := hps p (by simp)
  have hlast : ({ r with pending := p.lexemes } : Reader).readAll = .error (.rejected x) :=
    readAll_of_error (readForm_rejected hp hr rfl)
  rw [readAll_append (fun q hq => hps q (List.mem_append_left _ hq)) (.inr p.lexemes_ne_nil)
    (by simpa using hpending), hlast]
  rfl

end Reader

/-! ### What is read is parsed -/

/-- A collection that is open, with the parses of the items read so far. -/
structure OpenParse where
  kind : Kind
  opening : Extent
  items : List Parse

namespace OpenParse

/-- What the reader keeps of it. -/
def frame (w : OpenParse) : Frame :=
  ⟨w.kind, w.opening.start.toPlace, (w.items.map Parse.form).reverse⟩

/-- The lexemes read so far, the innermost collection being the first of the list. -/
def lexemes : List OpenParse → List Lexeme
  | [] => []
  | w :: ws => lexemes ws ++ w.opening.lexeme (.opening w.kind) :: w.items.flatMap Parse.lexemes

/-- The items read so far are paired. -/
def Paired (ws : List OpenParse) : Prop := ∀ w ∈ ws, ∀ p ∈ w.items, p.Paired

theorem paired_nil : Paired [] := by simp [Paired]

end OpenParse

/-- The state after a move accounts for the lexemes read so far: what is complete is the form of a
parse of them, and what is pending are the frames of open parses. -/
def Move.Accounts (read : List Lexeme) : Move → Prop
  | .complete form => ∃ p : Parse, p.Paired ∧ p.form = form ∧ p.lexemes = read
  | .pending top below => ∃ w ws, OpenParse.Paired (w :: ws) ∧ w.frame = top
      ∧ ws.map OpenParse.frame = below ∧ OpenParse.lexemes (w :: ws) = read
  | .fault _ => True

theorem Move.accounts_deliver {p : Parse} (hp : p.Paired) {ws : List OpenParse}
    (hws : OpenParse.Paired ws) :
    (Move.deliver p.form (ws.map OpenParse.frame)).Accounts
      (OpenParse.lexemes ws ++ p.lexemes) := by
  cases ws with
  | nil => exact ⟨p, hp, rfl, rfl⟩
  | cons w ws =>
      refine ⟨{ w with items := w.items ++ [p] }, ws, ?_, ?_, rfl, ?_⟩
      · intro v hv q hq
        rcases List.mem_cons.1 hv with rfl | hv
        · rcases List.mem_append.1 hq with hq | hq
          · exact hws w (List.mem_cons_self ..) q hq
          · obtain rfl := List.mem_singleton.1 hq
            exact hp
        · exact hws v (List.mem_cons_of_mem _ hv) q hq
      · simp [OpenParse.frame]
      · simp [OpenParse.lexemes]

/-- One lexeme more is accounted for **by every move**. -/
theorem Move.accounts_of {ws : List OpenParse} (hws : OpenParse.Paired ws) (l : Lexeme) :
    (Move.of (ws.map OpenParse.frame) l).Accounts (OpenParse.lexemes ws ++ [l]) := by
  obtain ⟨token, start, stop⟩ := l
  cases token with
  | scalar s => exact accounts_deliver (p := .leaf s ⟨start, stop⟩) trivial hws
  | opening k =>
      refine ⟨⟨k, ⟨start, stop⟩, []⟩, ws, ?_, rfl, rfl, ?_⟩
      · intro v hv q hq
        rcases List.mem_cons.1 hv with rfl | hv
        · simp at hq
        · exact hws v hv q hq
      · rfl
  | closing closer =>
      cases ws with
      | nil => trivial
      | cons w ws =>
          have hbelow : OpenParse.Paired ws := fun v hv => hws v (List.mem_cons_of_mem _ hv)
          by_cases hkind : w.kind.closer = closer
          · subst hkind
            -- a map with a key that has no value is a fault, for which nothing is claimed
            by_cases hodd : w.kind = .map ∧ w.items.length % 2 = 1
            · simp [Move.of, OpenParse.frame, Move.close, hodd, Move.Accounts]
            · have hp : (Parse.branch w.kind w.opening w.items ⟨start, stop⟩).Paired := by
                refine (Parse.paired_branch ..).2 ⟨fun hk => ?_, hws w (List.mem_cons_self ..)⟩
                have : ¬ w.items.length % 2 = 1 := fun h => hodd ⟨hk, h⟩
                omega
              have hmove := Move.of_closing hp w.opening.start.toPlace (ws.map OpenParse.frame)
              have haccounts := accounts_deliver hp hbelow
              rw [← hmove, Parse.lexemes_branch, ← List.cons_append,
                ← List.append_assoc] at haccounts
              exact haccounts
          · simp [Move.of, OpenParse.frame, hkind, Move.Accounts]

/-- A form that is read has a parse, and the lexemes up to the rest are those of the parse.  A
rejection is still ahead. -/
theorem readTree_eq_ok {rejection : Option Rejection} {ws : List OpenParse} {l : Lexeme}
    {rest rest' : List Lexeme} {form : Form} {stop : Position} (hws : OpenParse.Paired ws)
    (h : readTree rejection (ws.map OpenParse.frame) l rest = ⟨.ok (form, stop), rest'⟩) :
    ∃ p : Parse, p.Paired ∧ p.form = form ∧ p.extent.stop = stop
      ∧ OpenParse.lexemes ws ++ l :: rest = p.lexemes ++ rest'
      ∧ (rejection = none ∨ rest' ≠ []) := by
  -- each lexeme ahead is one move, and what the moves account for is carried along
  induction rest generalizing ws l with
  | nil =>
      have haccounts := Move.accounts_of hws l
      cases rejection with
      | some r => simp [readTree] at h
      | none =>
          simp only [readTree] at h
          split at h
          · next e =>
              rw [e] at haccounts
              obtain ⟨p, hp, hform, hlexemes⟩ := haccounts
              obtain ⟨⟨rfl, rfl⟩, rfl⟩ : (_ = form ∧ _ = stop) ∧ [] = rest' := by simpa using h
              exact ⟨p, hp, hform, Parse.stop_of_lexemes hlexemes, by simp [hlexemes], .inl rfl⟩
          · simp at h
          · simp at h
  | cons l' rest ih =>
      have haccounts := Move.accounts_of hws l
      rw [readTree] at h
      split at h
      · next e =>
          rw [e] at haccounts
          obtain ⟨p, hp, hform, hlexemes⟩ := haccounts
          obtain ⟨⟨rfl, rfl⟩, rfl⟩ : (_ = form ∧ _ = stop) ∧ l' :: rest = rest' := by simpa using h
          exact ⟨p, hp, hform, Parse.stop_of_lexemes hlexemes, by simp [hlexemes], .inr (by simp)⟩
      · simp at h
      · next top below e =>
          rw [e] at haccounts
          obtain ⟨w, vs, hpaired, rfl, rfl, hlexemes⟩ := haccounts
          obtain ⟨p, hp, hform, hstop, hrest, hlast⟩ := ih hpaired h
          refine ⟨p, hp, hform, hstop, ?_, hlast⟩
          rw [← hrest, hlexemes]
          simp

theorem Reader.pending_of_readForm_none {r r' : Reader} (h : r.readForm = (.ok none, r')) :
    r.pending = [] := by
  unfold readForm at h
  split at h
  · assumption
  · next l rest _ =>
      cases hread : (readTree r.rejection [] l rest).outcome <;> simp [hread, Except.map] at h

theorem Reader.readForm_eq_some {r r' : Reader} {top : TopForm}
    (h : r.readForm = (.ok (some top), r')) :
    ∃ p : Parse, p.Paired ∧ top = p.top r.text ∧ r.pending = p.lexemes ++ r'.pending
      ∧ r'.text = r.text ∧ r'.rejection = r.rejection
      ∧ (r.rejection = none ∨ r'.pending ≠ []) := by
  unfold readForm at h
  split at h
  · simp at h
  · next l rest hpending =>
      rcases hreading : readTree r.rejection [] l rest with ⟨outcome, rest'⟩
      rw [hreading] at h
      cases outcome with
      | error why => simp [Except.map] at h
      | ok read =>
          obtain ⟨form, stop⟩ := read
          obtain ⟨p, hp, rfl, rfl, hlexemes, hlast⟩ :=
            readTree_eq_ok OpenParse.paired_nil hreading
          obtain ⟨rfl, rfl⟩ : r.topForm p.form l.start p.extent.stop = top
              ∧ { r with pending := rest' } = r' := by simpa [Except.map] using h
          obtain ⟨l', ls, hl, hstart, -⟩ := p.lexemes_eq_cons
          have hlexemes' : l :: rest = p.lexemes ++ rest' := hlexemes
          have hll : l = l' := by rw [hl] at hlexemes'; exact (List.cons.inj hlexemes').1
          refine ⟨p, hp, ?_, by rw [hpending, hlexemes'], rfl, rfl, hlast⟩
          simp [topForm, Parse.top, hll, hstart]

theorem Reader.readAll_eq_ok {r : Reader} {tops : List TopForm}
    (hr : r.rejection = none ∨ r.pending ≠ []) (h : r.readAll = .ok tops) :
    r.rejection = none ∧ ∃ ps : List Parse, (∀ p ∈ ps, p.Paired)
      ∧ r.pending = ps.flatMap Parse.lexemes ∧ tops = ps.map (Parse.top r.text) := by
  fun_induction readAll r generalizing tops with
  | case1 r r' hform =>
      have hpending := pending_of_readForm_none hform
      obtain rfl : [] = tops := by simpa using h
      refine ⟨?_, [], by simp, by simp [hpending], rfl⟩
      rcases hr with hr | hr
      · exact hr
      · exact absurd hpending hr
  | case2 r top r' hform ih =>
      obtain ⟨p, hp, rfl, hpending, htext, hrejection, hlast⟩ := readForm_eq_some hform
      cases hmore : r'.readAll with
      | error why => simp [hmore, Except.map] at h
      | ok more =>
          obtain rfl : p.top r.text :: more = tops := by simpa [hmore, Except.map] using h
          obtain ⟨hnone, ps, hps, hpending', rfl⟩ := ih (by rwa [hrejection]) hmore
          refine ⟨hrejection ▸ hnone, p :: ps, ?_, ?_, ?_⟩
          · simpa using ⟨hp, hps⟩
          · rw [hpending, hpending', List.flatMap_cons]
          · rw [htext, List.map_cons]
  | case3 r why r' hform => simp at h

/-- Either a text is rejected at once, or there is something to read. -/
theorem LexemeStream.rejected_or (s : LexemeStream) :
    (∃ x, s = ⟨[], some x⟩) ∨ s.rejection = none ∨ s.lexemes ≠ [] := by
  obtain ⟨_ | ⟨l, ls⟩, _ | x⟩ := s <;> simp

/-- What is read from the lexemes of a text. -/
def LexemeStream.read (t : Text) : LexemeStream → Except ReadFault (List TopForm)
  | ⟨[], some x⟩ => .error (.rejected x)
  | ⟨lexemes, rejection⟩ => Reader.readAll ⟨t, lexemes, rejection⟩

theorem LexemeStream.read_eq {s : LexemeStream} (hs : s.rejection = none ∨ s.lexemes ≠ [])
    (t : Text) : s.read t = Reader.readAll ⟨t, s.lexemes, s.rejection⟩ := by
  unfold read
  split
  · simp at hs
  · rfl

theorem readForms_eq_read (t : Text) (firstLine : Nat) :
    readForms t firstLine = (LexemeStream.ofText t firstLine).read t := by
  unfold readForms Reader.ofText
  obtain ⟨_ | ⟨l, ls⟩, _ | x⟩ := LexemeStream.ofText t firstLine <;> rfl

/-- A text has forms **exactly if it has parses**, and they are the forms of these. -/
theorem readForms_eq_ok_iff {t : Text} {firstLine : Nat} {tops : List TopForm} :
    readForms t firstLine = .ok tops
      ↔ ∃ ps, Parses t firstLine ps ∧ tops = ps.map (Parse.top t) := by
  rw [readForms_eq_read]
  constructor
  · intro h
    rcases (LexemeStream.ofText t firstLine).rejected_or with ⟨x, hx⟩ | hs
    · rw [hx, LexemeStream.read] at h
      cases h
    · rw [LexemeStream.read_eq hs] at h
      obtain ⟨hnone, ps, hps, hpending, htops⟩ := Reader.readAll_eq_ok hs h
      refine ⟨ps, ⟨?_, hps⟩, htops⟩
      rw [← hpending, ← hnone]
  · rintro ⟨ps, ⟨hstream, hps⟩, rfl⟩
    rw [hstream, LexemeStream.read_eq (.inl rfl)]
    exact Reader.readAll_lexemes (r := ⟨t, _, none⟩) hps rfl rfl

/-- Whether a text has forms can be computed. -/
theorem exists_readForms (t : Text) (firstLine : Nat) (h : (readForms t firstLine).isOk) :
    ∃ tops, readForms t firstLine = .ok tops := by
  cases hread : readForms t firstLine with
  | error why => simp [hread, Except.isOk, Except.toBool] at h
  | ok tops => exact ⟨tops, rfl⟩

/-- So can be the fault of one that has none. -/
theorem readForms_eq_error (t : Text) (firstLine : Nat) {why : ReadFault}
    (h : (match readForms t firstLine with
      | .ok _ => none
      | .error why => some why) = some why) : readForms t firstLine = .error why := by
  cases hread : readForms t firstLine with
  | error why' =>
      rw [hread] at h
      rw [Option.some_inj.1 h]
  | ok tops => simp [hread] at h

/-! ### A text has one list of parses -/

/-- A closing delimiter begins no parse. -/
theorem Parse.lexemes_append_ne (p : Parse) (xs ys : List Lexeme) (c : Extent) (closer : Closer) :
    p.lexemes ++ xs ≠ c.lexeme (.closing closer) :: ys := by
  intro h
  obtain ⟨l, ls, hl, -, hclosing⟩ := p.lexemes_eq_cons
  rw [hl] at h
  have hfirst := (List.cons.inj h).1
  exact hclosing closer (by rw [hfirst]; rfl)

/-- The step from the items to their collection: both lists of items end at the first lexeme that
begins none. -/
theorem Parse.items_append_inj {items items' : List Parse}
    (ih : ∀ p ∈ items, ∀ {q : Parse} {xs ys : List Lexeme},
      p.lexemes ++ xs = q.lexemes ++ ys → p = q ∧ xs = ys)
    {closer : Closer} {c c' : Extent} {xs ys : List Lexeme}
    (h : items.flatMap lexemes ++ c.lexeme (.closing closer) :: xs
      = items'.flatMap lexemes ++ c'.lexeme (.closing closer) :: ys) :
    items = items' ∧ c = c' ∧ xs = ys := by
  induction items generalizing items' with
  | nil =>
      cases items' with
      | nil =>
          obtain ⟨start, stop⟩ := c
          obtain ⟨start', stop'⟩ := c'
          simpa [Extent.lexeme] using h
      | cons q qs =>
          rw [List.flatMap_cons, List.append_assoc] at h
          exact absurd h.symm (q.lexemes_append_ne _ _ _ _)
  | cons p ps ihps =>
      cases items' with
      | nil =>
          rw [List.flatMap_cons, List.append_assoc] at h
          exact absurd h (p.lexemes_append_ne _ _ _ _)
      | cons q qs =>
          rw [List.flatMap_cons, List.flatMap_cons, List.append_assoc, List.append_assoc] at h
          obtain ⟨rfl, hmore⟩ := ih p (List.mem_cons_self ..) h
          obtain ⟨rfl, hrest⟩ := ihps (fun r hr => ih r (List.mem_cons_of_mem _ hr)) hmore
          exact ⟨rfl, hrest⟩

/-- No parse can be mistaken for another, **whatever follows it**. -/
theorem Parse.lexemes_append_inj {p q : Parse} {xs ys : List Lexeme}
    (h : p.lexemes ++ xs = q.lexemes ++ ys) : p = q ∧ xs = ys := by
  induction p using Parse.induct generalizing q xs ys with
  | leaf s e =>
      obtain ⟨start, stop⟩ := e
      cases q with
      | leaf s' e' =>
          obtain ⟨start', stop'⟩ := e'
          simp_all [Extent.lexeme]
      | branch k' o' items' c' => simp [Extent.lexeme] at h
  | branch k o items c ih =>
      cases q with
      | leaf s' e' => simp [Extent.lexeme] at h
      | branch k' o' items' c' =>
          obtain ⟨start, stop⟩ := o
          obtain ⟨start', stop'⟩ := o'
          obtain ⟨⟨rfl, rfl, rfl⟩, htail⟩ : (k = k' ∧ start = start' ∧ stop = stop')
              ∧ items.flatMap lexemes ++ c.lexeme (.closing k.closer) :: xs
                = items'.flatMap lexemes ++ c'.lexeme (.closing k'.closer) :: ys := by
            simpa [Extent.lexeme] using h
          obtain ⟨rfl, rfl, rfl⟩ := items_append_inj ih htail
          exact ⟨rfl, rfl⟩

/-- A list of lexemes is that of **at most one** list of parses. -/
theorem Parse.flatMap_lexemes_inj {ps qs : List Parse}
    (h : ps.flatMap lexemes = qs.flatMap lexemes) : ps = qs := by
  have hne (p : Parse) (xs : List Lexeme) : [] ≠ p.lexemes ++ xs := by
    simp [p.lexemes_ne_nil]
  induction ps generalizing qs with
  | nil =>
      cases qs with
      | nil => rfl
      | cons q qs => exact absurd h (hne q _)
  | cons p ps ih =>
      cases qs with
      | nil => exact absurd h.symm (hne p _)
      | cons q qs =>
          obtain ⟨rfl, hmore⟩ := lexemes_append_inj h
          rw [ih hmore]

/-- A text has **at most one** list of parses. -/
theorem Parses.unique {t : Text} {firstLine : Nat} {ps qs : List Parse}
    (hp : Parses t firstLine ps) (hq : Parses t firstLine qs) : ps = qs :=
  Parse.flatMap_lexemes_inj (LexemeStream.mk.inj (hp.stream.symm.trans hq.stream)).1

end EdnSpans
