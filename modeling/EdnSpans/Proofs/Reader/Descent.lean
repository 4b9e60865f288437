/-
**The descent does what the machine with a stack does.**

A reader that descends into collections by calls of itself and a machine that keeps a stack of open
collections go over the same lexemes in the same order.  What is still to be done in the calls that
have begun is, on the machine, what is on the stack; so whatever the descent does is compared with
what the machine does with any stack.  It follows that the descent always comes to an end, with fuel
for two steps per lexeme, and that nothing but a fault of the text ever stops it.

Main definitions:

* `EdnSpans.Lookahead.Follows` — **the machine does the same**, with any stack;
* `EdnSpans.Lookahead.Simulates` — both readers are in the same place;
* `EdnSpans.Reader.exhaust` — the next form is asked for until there is none;
* `EdnSpans.descend` — the top-level forms of a text, by the descent.

Main results:

* `EdnSpans.Lookahead.Follows.bind`, `EdnSpans.Lookahead.Follows.take_bind` — one thing done after
  another, and a lexeme taken first;
* `EdnSpans.Lookahead.follows_of_fuel` — forms, and the items of a collection;
* `EdnSpans.Lookahead.Simulates.readForm`, `EdnSpans.Lookahead.Simulates.readAll` — both readers
  give the same, and are in the same place then;
* `EdnSpans.descend_eq_readForms` — **the descent ends, and reads the same**.
-/
import EdnSpans.Proofs.Reader.Lookahead

set_option relaxedAutoImplicit false
set_option autoImplicit false

namespace EdnSpans

open Text

/-! ### The descent and the stack -/

/-- The lexeme does not close the innermost open collection. -/
def Lexeme.StaysIn (l : Lexeme) (stack : List Frame) : Prop :=
  ∀ top below, stack = top :: below → l.token ≠ .closing top.kind.closer

/-- Something that is done with a reader ends, and **the machine with a stack does the same**: with
any stack of the given sort, it reads what it reads after the outcome from the lexemes that are then
left, or else it has the same fault. -/
def Lookahead.Follows {α : Type} (rejection : Option Rejection) (s : Lookahead) (x : Descent α)
    (bound : Nat) (sort : List Frame → Prop) (reading : List Frame → TreeReading)
    (after : α → Position → List Lexeme → List Frame → TreeReading) : Prop :=
  ∃ outcome s' rest, Descent.run x s = (outcome, s') ∧ s'.text = s.text
    ∧ s'.Shows rejection rest ∧ rest.length ≤ bound
    ∧ match outcome with
      | .ok a => (rejection = none ∨ rest ≠ [])
          ∧ ∀ stack, sort stack → reading stack = after a s'.lastStop rest stack
      | .error e => ∃ why, e = .fault why ∧ ∀ stack, sort stack → reading stack = ⟨.error why, rest⟩

namespace Lookahead

open Descent

variable {s : Lookahead} {rejection : Option Rejection} {l : Lexeme} {rest : List Lexeme}

namespace Follows

variable {α β : Type} {x : Descent α} {f : α → Descent β} {bound : Nat} {sort : List Frame → Prop}
  {reading : List Frame → TreeReading}
  {middle : α → Position → List Lexeme → List Frame → TreeReading}
  {after : β → Position → List Lexeme → List Frame → TreeReading}

theorem pure {a : β} (h : s.Shows rejection rest) (hready : rejection = none ∨ rest ≠ [])
    (hreading : ∀ stack, sort stack → reading stack = after a s.lastStop rest stack) :
    s.Follows rejection (pure a) rest.length sort reading after :=
  ⟨.ok a, s, rest, run_pure s a, rfl, h, Nat.le_refl _, hready, hreading⟩

theorem throw {why : ReadFault} (h : s.Shows rejection rest)
    (hreading : ∀ stack, sort stack → reading stack = ⟨.error why, rest⟩) :
    s.Follows rejection (throw (.fault why) : Descent β) rest.length sort reading after :=
  ⟨_, s, rest, run_throw s _, rfl, h, Nat.le_refl _, why, rfl, hreading⟩

/-- One thing done **after another**. -/
theorem bind (hx : s.Follows rejection x bound sort reading middle)
    (hf : ∀ (a : α) (s' : Lookahead) (rest : List Lexeme), s'.Shows rejection rest →
      (rejection = none ∨ rest ≠ []) → rest.length ≤ bound →
      s'.Follows rejection (f a) rest.length sort (middle a s'.lastStop rest) after) :
    s.Follows rejection (x >>= f) bound sort reading after := by
  obtain ⟨outcome, s₁, rest₁, hrun, htext, hshows, hle, hfollows⟩ := hx
  cases outcome with
  | error e => exact ⟨_, s₁, rest₁, run_bind_error hrun f, htext, hshows, hle, hfollows⟩
  | ok a =>
      obtain ⟨hready, hreading⟩ := hfollows
      obtain ⟨outcome, s₂, rest₂, hrun', htext', hshows', hle', hfollows'⟩ :=
        hf a s₁ rest₁ hshows hready hle
      refine ⟨outcome, s₂, rest₂, (run_bind_ok hrun f).trans hrun', htext'.trans htext, hshows',
        Nat.le_trans hle' hle, ?_⟩
      cases outcome with
      | ok b =>
          refine ⟨hfollows'.1, ?_⟩
          intro stack hstack
          exact (hreading stack hstack).trans (hfollows'.2 stack hstack)
      | error e =>
          obtain ⟨why, rfl, hreading'⟩ := hfollows'
          refine ⟨why, rfl, ?_⟩
          intro stack hstack
          exact (hreading stack hstack).trans (hreading' stack hstack)

theorem mono (hx : s.Follows rejection x bound sort reading middle) {bound' : Nat}
    (hbound : bound ≤ bound') : s.Follows rejection x bound' sort reading middle := by
  obtain ⟨outcome, s₁, rest₁, hrun, htext, hshows, hle, hfollows⟩ := hx
  exact ⟨outcome, s₁, rest₁, hrun, htext, hshows, Nat.le_trans hle hbound, hfollows⟩

theorem get_bind {f : Lookahead → Descent β}
    (hf : s.Follows rejection (f s) bound sort reading after) :
    s.Follows rejection (get >>= f) bound sort reading after := by
  obtain ⟨outcome, s₁, rest₁, hrun, hfollows⟩ := hf
  exact ⟨outcome, s₁, rest₁, (run_bind_ok (run_get s) f).trans hrun, hfollows⟩

/-- With **more on the stack**. -/
theorem push (hx : s.Follows rejection x bound sort reading middle) {sort' : List Frame → Prop}
    (g : List Frame → List Frame) (hg : ∀ stack, sort' stack → sort (g stack)) :
    s.Follows rejection x bound sort' (fun stack => reading (g stack))
      (fun a stop rest stack => middle a stop rest (g stack)) := by
  obtain ⟨outcome, s₁, rest₁, hrun, htext, hshows, hle, hfollows⟩ := hx
  refine ⟨outcome, s₁, rest₁, hrun, htext, hshows, hle, ?_⟩
  cases outcome with
  | ok a =>
      refine ⟨hfollows.1, ?_⟩
      intro stack hstack
      exact hfollows.2 _ (hg stack hstack)
  | error e =>
      obtain ⟨why, rfl, hreading⟩ := hfollows
      refine ⟨why, rfl, ?_⟩
      intro stack hstack
      exact hreading _ (hg stack hstack)

/-- A lexeme is taken, and the machine **makes its move**; unless a rejection is right behind it,
which is then all that both of them meet. -/
theorem take_bind {f : Ahead → Descent β} (h : s.Shows rejection (l :: rest))
    (g : List Frame → List Frame)
    (hf : ∀ s' : Lookahead, s'.Shows rejection rest → (rejection = none ∨ rest ≠ []) →
      s'.Follows rejection (f (.lexeme l)) rest.length sort
        (fun stack => (Move.of (g stack) l).resume rejection s'.lastStop rest) after) :
    s.Follows rejection (take >>= f) rest.length sort
      (fun stack => readTree rejection (g stack) l rest) after := by
  rcases (LexemeStream.mk rest rejection).rejected_or with ⟨x, heq⟩ | hready
  · obtain ⟨rfl, rfl⟩ := LexemeStream.mk.inj heq
    obtain ⟨s₁, hrun, htext, hshows⟩ := run_take_rejected h
    refine ⟨_, s₁, [], run_bind_error hrun f, htext, hshows, Nat.le_refl _, _, rfl, ?_⟩
    intro stack _
    rfl
  · obtain ⟨s₁, hrun, htext, hstop, hshows⟩ := run_take h hready
    obtain ⟨outcome, s₂, rest₂, hrun', htext', hshows', hle, hfollows⟩ := hf s₁ hshows hready
    refine ⟨outcome, s₂, rest₂, (run_bind_ok hrun f).trans hrun', htext'.trans htext, hshows', hle,
      ?_⟩
    simp only [readTree_eq_resume hready, ← hstop]
    exact hfollows

end Follows

/-- The items of a collection are read as the machine reads them. -/
def ItemsFollow (fuel : Nat) (rejection : Option Rejection) (s : Lookahead) (pending : List Lexeme)
    (kind : Kind) (place : Place) (items : List Form) : Prop :=
  s.Follows rejection (parseItems fuel kind place items) pending.length (fun _ => True)
    (fun below => (Move.pending ⟨kind, place, items.reverse⟩ below).resume rejection s.lastStop
      pending)
    (fun items stop rest below => (Move.close ⟨kind, place, items.reverse⟩ below).resume rejection
      stop rest)

/-- A form is read as the machine reads it. -/
def FormFollows (fuel : Nat) (rejection : Option Rejection) (s : Lookahead) (l : Lexeme)
    (rest : List Lexeme) : Prop :=
  s.Follows rejection (parseForm fuel) rest.length l.StaysIn
    (fun stack => readTree rejection stack l rest)
    (fun form stop rest stack => (Move.deliver form stack).resume rejection stop rest)

/-- A form is read as the machine reads it, **if the items of a collection are**. -/
theorem formFollows_of_items {fuel : Nat} (h : s.Shows rejection (l :: rest))
    (hitems : ∀ (s' : Lookahead) (kind : Kind), s'.Shows rejection rest →
      (rejection = none ∨ rest ≠ []) →
      s'.ItemsFollow fuel rejection rest kind l.start.toPlace []) :
    s.FormFollows (fuel + 1) rejection l rest := by
  rw [FormFollows, parseForm]
  refine Follows.take_bind h (fun stack => stack) fun s₁ hshows hready => ?_
  dsimp only
  cases htoken : l.token with
  | scalar v =>
      refine .pure hshows hready ?_
      intro stack _
      rw [Move.of, htoken]
  | closing closer =>
      refine .throw hshows ?_
      intro stack hstays
      rw [Move.of, htoken]
      cases stack with
      | nil => rfl
      | cons top below =>
          have hne : top.kind.closer ≠ closer := by
            intro heq
            exact hstays top below rfl (by rw [htoken, heq])
          simp only [if_neg hne]
          rfl
  | opening kind =>
      have hbody := (hitems s₁ kind hshows hready).push (fun stack => stack)
        (fun stack (_ : l.StaysIn stack) => trivial)
      have hopen (stack : List Frame) :
          Move.of stack l = .pending ⟨kind, l.start.toPlace, []⟩ stack := by
        rw [Move.of, htoken]
      simp only [hopen]
      refine hbody.bind fun items s₂ rest' hshows' hready' _ => ?_
      by_cases hodd : kind = .map ∧ items.length % 2 = 1
      · rw [if_pos hodd]
        refine .throw hshows' ?_
        intro stack _
        simp only [Move.close, List.length_reverse, if_pos hodd]
        rfl
      · rw [if_neg hodd]
        refine .pure hshows' hready' ?_
        intro stack _
        simp only [Move.close, List.length_reverse, if_neg hodd, List.reverse_reverse]

/-- The items of a collection are read as the machine reads them, **if the first of them is, and
those behind it are**. -/
theorem itemsFollow_of_form {fuel : Nat} {pending : List Lexeme} {kind : Kind} {place : Place}
    {items : List Form} (h : s.Shows rejection pending)
    (hform : ∀ l rest, pending = l :: rest → s.FormFollows fuel rejection l rest)
    (hitems : ∀ (s' : Lookahead) (pending' : List Lexeme) (items' : List Form),
      s'.Shows rejection pending' → (rejection = none ∨ pending' ≠ []) →
      pending'.length < pending.length →
      s'.ItemsFollow fuel rejection pending' kind place items') :
    s.ItemsFollow (fuel + 1) rejection pending kind place items := by
  rw [ItemsFollow, parseItems]
  refine .get_bind ?_
  cases pending with
  | nil =>
      split
      · next l hahead => exact absurd hahead (h l)
      · refine .throw h ?_
        intro below _
        rfl
  | cons l rest =>
      rw [h.1]
      dsimp only
      refine Follows.mono ?_ (Nat.le_succ rest.length)
      by_cases hclose : l.token = .closing kind.closer
      · rw [if_pos hclose]
        refine .take_bind h (⟨kind, place, items.reverse⟩ :: ·) fun s₁ hshows hready₁ => ?_
        refine .pure hshows hready₁ ?_
        intro below _
        simp only [Move.of, hclose, if_true]
      · rw [if_neg hclose]
        have hstays : ∀ below : List Frame, True →
            l.StaysIn (⟨kind, place, items.reverse⟩ :: below) := by
          intro below _ top below' heq htoken
          obtain ⟨rfl, -⟩ := List.cons.inj heq
          exact hclose htoken
        refine ((hform l rest rfl).push _ hstays).bind fun form s₁ rest₁ hshows hready₁ hle => ?_
        have hmore := hitems s₁ rest₁ (items ++ [form]) hshows hready₁ (Nat.lt_succ_of_le hle)
        rw [ItemsFollow, List.reverse_append] at hmore
        exact hmore

/-- Forms and items **are read as the machine reads them**, with fuel for two steps per lexeme:
every item takes a lexeme, and so do the delimiters of a collection among the items. -/
theorem follows_of_fuel (rejection : Option Rejection) (fuel : Nat) :
    (∀ (s : Lookahead) (l : Lexeme) (rest : List Lexeme), s.Shows rejection (l :: rest) →
        2 * rest.length + 2 ≤ fuel → s.FormFollows fuel rejection l rest)
      ∧ ∀ (s : Lookahead) (pending : List Lexeme) (kind : Kind) (place : Place)
        (items : List Form), s.Shows rejection pending → 2 * pending.length + 1 ≤ fuel →
        s.ItemsFollow fuel rejection pending kind place items := by
  induction fuel with
  | zero =>
      refine ⟨?_, ?_⟩
      · intro s l rest _ hfuel
        omega
      · intro s pending kind place items _ hfuel
        omega
  | succ fuel ih =>
      obtain ⟨ihform, ihitems⟩ := ih
      refine ⟨?_, ?_⟩
      · intro s l rest hshows hfuel
        refine formFollows_of_items hshows fun s' kind hshows' _ => ?_
        exact ihitems s' rest kind _ [] hshows' (by omega)
      · intro s pending kind place items hshows hfuel
        refine itemsFollow_of_form hshows ?_ ?_
        · rintro l rest rfl
          refine ihform s l rest hshows ?_
          rw [List.length_cons] at hfuel
          omega
        · intro s' pending' items' hshows' _ hlt
          exact ihitems s' pending' kind place items' hshows' (by omega)

/-- A form **is read as the machine reads it**, which begins with an empty stack. -/
theorem run_parseForm {fuel : Nat} (hfuel : 2 * rest.length + 2 ≤ fuel)
    (h : s.Shows rejection (l :: rest)) {outcome : Except ReadFault (Form × Position)}
    {rest' : List Lexeme} (hreading : readTree rejection [] l rest = ⟨outcome, rest'⟩) :
    ∃ s', run (parseForm fuel) s = ((outcome.map Prod.fst).mapError .fault, s')
      ∧ s'.text = s.text ∧ s'.Shows rejection rest'
      ∧ ∀ form stop, outcome = .ok (form, stop) → s'.lastStop = stop := by
  obtain ⟨found, s', rest₁, hrun, htext, hshows, -, hfollows⟩ :=
    (follows_of_fuel rejection fuel).1 s l rest h hfuel
  have hstays : l.StaysIn [] := by
    intro top below heq
    cases heq
  cases found with
  | error e =>
      obtain ⟨why, rfl, hfault⟩ := hfollows
      obtain ⟨rfl, rfl⟩ := TreeReading.mk.inj (hreading.symm.trans (hfault [] hstays))
      exact ⟨s', hrun, htext, hshows, by intro form stop heq; cases heq⟩
  | ok form =>
      obtain ⟨rfl, rfl⟩ := TreeReading.mk.inj (hreading.symm.trans (hfollows.2 [] hstays))
      refine ⟨s', hrun, htext, hshows, ?_⟩
      rintro form' stop ⟨⟩
      rfl

end Lookahead

/-! ### Readers in a text -/

theorem readTree_rest_suffix (rejection : Option Rejection) (stack : List Frame) (l : Lexeme)
    (rest : List Lexeme) : (readTree rejection stack l rest).rest <:+ rest := by
  induction rest generalizing stack l with
  | nil =>
      have hlength := length_rest_readTree rejection stack l []
      exact List.suffix_nil.2 (List.eq_nil_of_length_eq_zero (Nat.le_zero.1 hlength))
  | cons l' rest ih =>
      rw [readTree]
      split
      · exact List.suffix_refl _
      · exact List.suffix_refl _
      · exact (ih _ _).trans (List.suffix_cons l' rest)

namespace Reader

/-- The lexemes that are left stand in the text behind a cursor, one behind the other. -/
def StandsAt (firstLine : Nat) (k : Cursor) (r : Reader) : Prop :=
  k.Within r.text firstLine ∧ ∃ m, Cursor.Run (Gap false) k r.pending m

variable {firstLine : Nat} {k : Cursor} {r : Reader} {l : Lexeme} {rest rest' : List Lexeme}

theorem readForm_of_nil (h : r.pending = []) : r.readForm = (.ok none, r) := by
  simp only [readForm, h]

theorem readForm_of_ok {form : Form} {stop : Position} (hpending : r.pending = l :: rest)
    (hreading : readTree r.rejection [] l rest = ⟨.ok (form, stop), rest'⟩) :
    r.readForm = (.ok (some (r.topForm form l.start stop)), { r with pending := rest' }) := by
  simp only [readForm, hpending, hreading]
  rfl

theorem readForm_of_error {why : ReadFault} (hpending : r.pending = l :: rest)
    (hreading : readTree r.rejection [] l rest = ⟨.error why, rest'⟩) :
    r.readForm = (.error why, { r with pending := rest' }) := by
  simp only [readForm, hpending, hreading]
  rfl

theorem pending_readForm_suffix (r : Reader) : r.readForm.2.pending <:+ r.pending := by
  unfold readForm
  split
  · exact List.suffix_refl _
  · next l rest hpending =>
      rw [hpending]
      exact (readTree_rest_suffix ..).trans (List.suffix_cons l rest)

@[simp] theorem text_readForm (r : Reader) : r.readForm.2.text = r.text := by
  unfold readForm
  split <;> rfl

/-- The reader moves on **over the lexemes that it takes**. -/
theorem StandsAt.readForm (h : r.StandsAt firstLine k) :
    ∃ taken k', r.pending = taken ++ r.readForm.2.pending ∧ Cursor.Run (Gap false) k taken k'
      ∧ r.readForm.2.StandsAt firstLine k' := by
  obtain ⟨hk, m, hrun⟩ := h
  obtain ⟨taken, htaken⟩ := r.pending_readForm_suffix
  rw [← htaken] at hrun
  obtain ⟨k', hbefore, hrun⟩ := Cursor.Run.append_iff.1 hrun
  refine ⟨taken, k', htaken.symm, hbefore, ?_, m, hrun⟩
  rw [text_readForm]
  exact hk.run hbefore

end Reader

/-- The lexemes in front of a cursor, up to a rejection or the end, **are a run**. -/
theorem Cursor.exists_run_stream (k : Cursor) : ∃ m, Run (Gap false) k k.stream.lexemes m := by
  fun_induction events k with
  | case1 k last h =>
      rw [stream_of_finished h]
      exact ⟨k, .nil k⟩
  | case2 k l after h more last e ih =>
      obtain ⟨m, hrun⟩ := ih
      rw [stream_of_lexeme h]
      exact ⟨m, run_cons_iff.2 ⟨after, h, hrun⟩⟩
  | case3 k r after h more last e ih =>
      rw [stream_of_rejected h]
      exact ⟨k, .nil k⟩

/-- A parse that stands in a text can be cut out of it **by bytes as well as by characters**. -/
theorem Parse.byteSlice?_extent {t : Text} {firstLine : Nat} {sort : Text → Prop} {k m : Cursor}
    {p : Parse} (hk : k.Within t firstLine) (h : Cursor.Run sort k p.lexemes m) :
    byteSlice? t p.extent.start.byte p.extent.stop.byte
      = some (slice t p.extent.start.offset p.extent.stop.offset) := by
  obtain ⟨gap, body, hrest, hstart, hstop, -⟩ := h.extent
  rw [(hk.span_eq_seed hrest hstart hstop).2]
  obtain ⟨before, ht, hposition⟩ := hk
  have hbyte : p.extent.start.byte = byteSize (before ++ gap) := by
    rw [hstart, hposition, ← Position.after_append, Position.byte_after]
    exact Nat.zero_add _
  rw [hstop, Position.byte_after, hbyte, ht, hrest, ← List.append_assoc]
  exact byteSlice?_append ..

/-- The source of a form that was read is cut out of the text **between characters**. -/
theorem Reader.StandsAt.byteSlice? {firstLine : Nat} {k : Cursor} {r : Reader}
    (h : r.StandsAt firstLine k) {l : Lexeme} {rest rest' : List Lexeme} {form : Form}
    {stop : Position} (hpending : r.pending = l :: rest)
    (hreading : readTree r.rejection [] l rest = ⟨.ok (form, stop), rest'⟩) :
    Text.byteSlice? r.text l.start.byte stop.byte
      = some (slice r.text l.start.offset stop.offset) := by
  obtain ⟨hk, m, hrun⟩ := h
  obtain ⟨p, -, -, rfl, hlexemes, -⟩ := readTree_eq_ok OpenParse.paired_nil hreading
  have hsplit : l :: rest = p.lexemes ++ rest' := hlexemes
  obtain ⟨l', ls, hl, hstart, -⟩ := p.lexemes_eq_cons
  have hll : l = l' := by
    rw [hl] at hsplit
    exact (List.cons.inj hsplit).1
  rw [hpending, hsplit] at hrun
  obtain ⟨k', hp, -⟩ := Cursor.Run.append_iff.1 hrun
  rw [hll, hstart]
  exact p.byteSlice?_extent hk hp

/-! ### Both readers -/

namespace Lookahead

open Descent

/-- The reader with one lexeme ahead is where the other reader is. -/
structure Simulates (firstLine : Nat) (s : Lookahead) (r : Reader) : Prop where
  text_eq : s.text = r.text
  shows : s.Shows r.rejection r.pending
  standsAt : ∃ k, r.StandsAt firstLine k

variable {firstLine : Nat} {s : Lookahead} {r : Reader}

/-- Both readers give **the same form or the same fault**, and are in the same place then. -/
theorem Simulates.readForm (h : s.Simulates firstLine r) {fuel : Nat}
    (hfuel : 2 * r.pending.length ≤ fuel) :
    ∃ s', run (readForm fuel) s = (r.readForm.1.mapError .fault, s')
      ∧ s'.Simulates firstLine r.readForm.2 := by
  obtain ⟨htext, hshows, k, hk⟩ := h
  have hstands : ∃ k', r.readForm.2.StandsAt firstLine k' := by
    obtain ⟨-, k', -, -, hk'⟩ := hk.readForm
    exact ⟨k', hk'⟩
  cases hpending : r.pending with
  | nil =>
      rw [hpending] at hshows
      rw [Reader.readForm_of_nil hpending] at hstands ⊢
      refine ⟨s, ?_, htext, by rwa [hpending], hstands⟩
      rw [Descent.readForm, run_bind_ok (run_get s)]
      split
      · next l hahead => exact absurd hahead (hshows l)
      · rfl
  | cons l rest =>
      rcases hreading : readTree r.rejection [] l rest with ⟨outcome, rest'⟩
      rw [hpending] at hshows hfuel
      obtain ⟨s₁, hrun, htext₁, hshows₁, hstop⟩ := run_parseForm hfuel hshows hreading
      rw [Descent.readForm, run_bind_ok (run_get s), hshows.1]
      cases outcome with
      | error why =>
          rw [Reader.readForm_of_error hpending hreading] at hstands ⊢
          exact ⟨s₁, run_bind_error hrun _, htext₁.trans htext, hshows₁, hstands⟩
      | ok read =>
          obtain ⟨form, stop⟩ := read
          rw [Reader.readForm_of_ok hpending hreading] at hstands ⊢
          refine ⟨s₁, ?_, htext₁.trans htext, hshows₁, hstands⟩
          have hcut := hk.byteSlice? hpending hreading
          rw [← htext, ← htext₁, ← hstop form stop rfl] at hcut
          dsimp only
          rw [run_bind_ok hrun, run_bind_ok (run_get s₁), hcut, hstop form stop rfl, htext₁, htext]
          rfl

end Lookahead

namespace Reader

/-- What comes of asking for the next form until there is none, and the reader then. -/
def exhaust (r : Reader) : List (Except ReadFault (Option TopForm)) × Reader :=
  match _h : r.readForm with
  | (.ok (some top), rest) => (.ok (some top) :: rest.exhaust.1, rest.exhaust.2)
  | (.ok none, rest) => ([.ok none], rest)
  | (.error why, rest) => ([.error why], rest)
termination_by r.pending.length
decreasing_by
  all_goals
    have := length_pending_readForm (r := r) (by rw [_h]; simp)
    rwa [_h] at this

variable {r r' : Reader}

theorem exhaust_of_some {top : TopForm} (h : r.readForm = (.ok (some top), r')) :
    r.exhaust = (.ok (some top) :: r'.exhaust.1, r'.exhaust.2) := by
  rw [exhaust]
  split
  all_goals simp_all

theorem exhaust_of_none (h : r.readForm = (.ok none, r')) : r.exhaust = ([.ok none], r') := by
  rw [exhaust]
  split
  all_goals simp_all

theorem exhaust_of_error {why : ReadFault} (h : r.readForm = (.error why, r')) :
    r.exhaust = ([.error why], r') := by
  rw [exhaust]
  split
  all_goals simp_all

end Reader

namespace Lookahead

open Descent

variable {firstLine : Nat} {s : Lookahead} {r : Reader}

/-- Both readers give **the same forms or the same fault**, when all forms are to be read. -/
theorem Simulates.readAll (h : s.Simulates firstLine r) {fuel : Nat}
    (hfuel : 2 * r.pending.length + 1 ≤ fuel) :
    ∃ s', run (readAll fuel) s = (r.readAll.mapError .fault, s')
      ∧ s'.Simulates firstLine r.exhaust.2 := by
  induction fuel generalizing s r with
  | zero => omega
  | succ fuel ih =>
      obtain ⟨s₁, hrun, hsimulates⟩ := h.readForm (show 2 * r.pending.length ≤ fuel by omega)
      rcases hform : r.readForm with ⟨outcome, r'⟩
      rw [hform] at hrun hsimulates
      rw [Descent.readAll]
      cases outcome with
      | error why =>
          rw [Reader.readAll_of_error hform, Reader.exhaust_of_error hform]
          exact ⟨s₁, run_bind_error hrun _, hsimulates⟩
      | ok found =>
          rw [run_bind_ok hrun]
          cases found with
          | none =>
              rw [Reader.readAll_of_none hform, Reader.exhaust_of_none hform]
              exact ⟨s₁, rfl, hsimulates⟩
          | some top =>
              have hlength := Reader.length_pending_readForm (r := r) (by rw [hform]; simp)
              rw [hform] at hlength
              obtain ⟨s₂, hrun', hsimulates'⟩ :=
                ih (r := r') hsimulates (by dsimp only at hlength; omega)
              rw [Reader.readAll_of_some hform, Reader.exhaust_of_some hform]
              refine ⟨s₂, ?_, hsimulates'⟩
              cases hmore : r'.readAll with
              | error why =>
                  rw [hmore] at hrun'
                  exact run_bind_error hrun' _
              | ok more =>
                  rw [hmore] at hrun'
                  exact run_bind_ok hrun' _

/-- Both readers begin **in the same place**, or are stopped by the same rejection. -/
theorem ofText_simulates (t : Text) (firstLine : Nat) :
    match Reader.ofText t firstLine with
    | .ok r => ∃ s, ofText t firstLine = .ok s ∧ s.Simulates firstLine r
    | .error why => ofText t firstLine = .error (.fault why) := by
  have hstream : LexemeStream.ofText t firstLine = (Cursor.ofText t firstLine).stream := rfl
  obtain ⟨m, hrun⟩ := (Cursor.ofText t firstLine).exists_run_stream
  have hwithin := Cursor.within_ofText t firstLine
  rw [Reader.ofText, ofText, hstream]
  cases hnext : (Cursor.ofText t firstLine).next with
  | finished k =>
      rw [Cursor.stream_of_finished hnext] at hrun ⊢
      exact ⟨_, rfl, rfl, (by intro l hl; cases hl), _, hwithin, m, hrun⟩
  | rejected x k =>
      rw [Cursor.stream_of_rejected hnext]
      rfl
  | lexeme l k =>
      rw [Cursor.stream_of_lexeme hnext] at hrun ⊢
      exact ⟨_, rfl, rfl, ⟨rfl, rfl⟩, _, hwithin, m, hrun⟩

end Lookahead

/-- A reader begins with the lexemes of its text. -/
theorem Reader.pending_ofText {t : Text} {firstLine : Nat} {r : Reader}
    (h : ofText t firstLine = .ok r) : r.pending = (LexemeStream.ofText t firstLine).lexemes := by
  rw [ofText] at h
  split at h
  · cases h
  · next heq =>
      obtain rfl := Except.ok.inj h
      rw [heq]

/-- The top-level forms of a text, by a reader with one lexeme ahead. -/
def descend (fuel : Nat) (t : Text) (firstLine : Nat) : Except Halt (List TopForm) :=
  (Lookahead.ofText t firstLine).bind fun s => (Descent.run (Descent.readAll fuel) s).1

/-- **The descent ends, and reads the same**: it gives the forms of the text, or its fault, and is
never stopped by anything else. -/
theorem descend_eq_readForms {fuel : Nat} {t : Text} {firstLine : Nat}
    (hfuel : 2 * (LexemeStream.ofText t firstLine).lexemes.length + 1 ≤ fuel) :
    descend fuel t firstLine = (readForms t firstLine).mapError .fault := by
  have hboth := Lookahead.ofText_simulates t firstLine
  rw [descend, readForms]
  cases hr : Reader.ofText t firstLine with
  | error why =>
      rw [hr] at hboth
      rw [hboth]
      rfl
  | ok r =>
      rw [hr] at hboth
      obtain ⟨s, hs, hsimulates⟩ := hboth
      rw [← Reader.pending_ofText hr] at hfuel
      obtain ⟨s', hrun, -⟩ := hsimulates.readAll hfuel
      rw [hs, Except.bind, hrun]
      rfl

end EdnSpans
