/-
**Documents one behind the other.**

Nothing is carried over from one top-level form to the next.  So when a line break and a second text
are put behind a text that can be read, the forms of the first text stay what they are, those of the
second one follow, further on, and a fault in the second text is reported as if it stood alone.

The line break is needed: it ends a comment, and it keeps the last lexeme of the first text apart
from the first lexeme of the second one.

Main definitions:

* `EdnSpans.TopForm.shift` — a top-level form further on in the text;
* `EdnSpans.Reader.behind` — a reader of the same lexemes, behind some more text.

Main results:

* `EdnSpans.Reader.readAll_behind` — what stands before a text has no influence on its forms;
* `EdnSpans.LexemeStream.read_behind` — the forms of parses, and what is read behind them;
* `EdnSpans.readForms_append` — the forms of two texts with a line break between them;
* `EdnSpans.attributeText_append` — **the attribution of two documents, one behind the other**.
-/
import EdnSpans.Document
import EdnSpans.Proofs.Attribution.Shift
import EdnSpans.Proofs.Reader.Layout
import EdnSpans.Proofs.Token.Seam

set_option relaxedAutoImplicit false
set_option autoImplicit false

namespace EdnSpans

open Text

/-! ### Trees further on -/

/-- The outcome further on.  A fault is reported at a line and a column, which stay. -/
def TreeReading.shift (chars bytes : Nat) (reading : TreeReading) : TreeReading :=
  ⟨reading.outcome.map (Prod.map id (Position.shift chars bytes)),
    reading.rest.map (Lexeme.shift chars bytes)⟩

/-- A lexeme makes the same move **wherever it stands**. -/
theorem Move.of_shift (chars bytes : Nat) (stack : List Frame) (l : Lexeme) :
    Move.of stack (l.shift chars bytes) = Move.of stack l := rfl

theorem readTree_shift (chars bytes : Nat) (rejection : Option Rejection) (stack : List Frame)
    (l : Lexeme) (rest : List Lexeme) :
    readTree rejection stack (l.shift chars bytes) (rest.map (Lexeme.shift chars bytes))
      = (readTree rejection stack l rest).shift chars bytes := by
  induction rest generalizing stack l with
  | nil =>
      cases rejection with
      | some r => rfl
      | none =>
          simp only [List.map_nil, readTree, Move.of_shift]
          cases Move.of stack l <;> rfl
  | cons l' rest ih =>
      rw [List.map_cons, readTree, readTree, Move.of_shift]
      cases Move.of stack l with
      | complete form => rfl
      | fault why => rfl
      | pending top below => exact ih (top :: below) l'

/-! ### Forms further on -/

/-- The top-level form further on in the text, on the same line. -/
def TopForm.shift (chars : Nat) (top : TopForm) : TopForm :=
  ⟨top.form.mapSpans (Span.shift 0 chars), top.seed.shift 0 chars⟩

theorem Parse.mapSpans_form (φ : Span → Span) (p : Parse) : p.form.mapSpans φ = p.form := by
  induction p using Parse.induct with
  | leaf s e => rfl
  | branch k o items c ih =>
      rw [form_branch, Form.mapSpans_node, List.map_map]
      congr 1
      exact List.map_congr_left ih

theorem Form.attach_mapSpans {f : Form} {φ : Span → Span} (h : f.mapSpans φ = f) (m : Span) :
    (f.attach m).form.mapSpans φ = (f.attach (φ m)).form := by
  simp only [attach]
  split
  · cases f with
    | atom s n => rfl
    | node kind cs n =>
        rw [mapSpans_node] at h
        simpa [Attachment.form, setSpan] using (Form.node.inj h).2.1
  · exact h

namespace Reader

/-- A reader of the same lexemes, behind some more text. -/
def behind (front : Text) (r : Reader) : Reader :=
  ⟨front ++ r.text, r.pending.map (Lexeme.shift front.length (byteSize front)), r.rejection⟩

variable (front : Text)

theorem topForm_behind (r : Reader) (p : Parse) (bytes : Nat) (start stop : Position) :
    (r.behind front).topForm p.form (start.shift front.length bytes)
        (stop.shift front.length bytes)
      = (r.topForm p.form start stop).shift front.length := by
  have hslice : slice (front ++ r.text) (start.offset + front.length) (stop.offset + front.length)
      = slice r.text start.offset stop.offset := by
    rw [Nat.add_comm start.offset, Nat.add_comm stop.offset, slice_append_add]
  have hseed (source : Text) : Span.seed source start.line (start.offset + front.length)
      = (Span.seed source start.line start.offset).shift 0 front.length := by
    simp only [Span.seed, Span.shift, Span.mk.injEq, true_and, Nat.add_zero]
    omega
  simp only [topForm, behind, Position.shift, TopForm.shift, hslice, hseed,
    Form.attach_mapSpans (p.mapSpans_form _)]

/-- The next form is the same, **further on**. -/
theorem readForm_behind (r : Reader) :
    (r.behind front).readForm
      = (r.readForm.1.map (Option.map (TopForm.shift front.length)),
          r.readForm.2.behind front) := by
  obtain ⟨t, pending, rejection⟩ := r
  cases pending with
  | nil => rfl
  | cons l rest =>
      have hshift := readTree_shift front.length (byteSize front) rejection [] l rest
      rcases hreading : readTree rejection [] l rest with ⟨outcome, rest'⟩
      rw [hreading] at hshift
      simp only [readForm, behind, List.map_cons, hshift, hreading, TreeReading.shift]
      cases outcome with
      | error why => rfl
      | ok read =>
          obtain ⟨form, stop⟩ := read
          -- a form that was read carries no span before it is given its seed
          obtain ⟨p, -, rfl, -⟩ := readTree_eq_ok OpenParse.paired_nil hreading
          have htop := topForm_behind front ⟨t, l :: rest, rejection⟩ p (byteSize front) l.start
            stop
          simp only [Except.map, Prod.map_apply, id, Option.map_some]
          exact congrArg (fun top => (Except.ok (some top), _)) htop

/-- What stands before a text **has no influence on its forms**. -/
theorem readAll_behind (r : Reader) :
    (r.behind front).readAll = r.readAll.map (List.map (TopForm.shift front.length)) := by
  fun_induction readAll r with
  | case1 r r' hform =>
      have hbehind := readForm_behind front r
      rw [hform] at hbehind
      rw [readAll_of_none hbehind]
      rfl
  | case2 r top r' hform ih =>
      have hbehind := readForm_behind front r
      rw [hform] at hbehind
      rw [readAll_of_some hbehind, ih]
      cases r'.readAll <;> rfl
  | case3 r why r' hform =>
      have hbehind := readForm_behind front r
      rw [hform] at hbehind
      rw [readAll_of_error hbehind]
      rfl

end Reader

/-! ### Two texts with a line break between them -/

/-- A parse is the parse of the same form **in a longer text**. -/
theorem Parse.StandsIn.top_append {t : Text} {firstLine : Nat} {sort : Text → Prop} {p : Parse}
    (h : p.StandsIn t firstLine sort) (more : Text) : p.top (t ++ more) = p.top t := by
  obtain ⟨k, m, hk, -, hrun⟩ := h
  obtain ⟨gap, body, hrest, hstart, hstop, -⟩ := hrun.extent
  obtain ⟨-, hslice⟩ := hk.span_eq_seed hrest hstart hstop
  have hk' : Cursor.Within (t ++ more) firstLine ⟨k.rest ++ more, k.position⟩ := by
    obtain ⟨before, ht, hposition⟩ := hk
    exact ⟨before, by rw [ht, List.append_assoc], hposition⟩
  have hrest' : k.rest ++ more = gap ++ (body ++ (m.rest ++ more)) := by
    rw [hrest]
    simp only [List.append_assoc]
  obtain ⟨-, hslice'⟩ := hk'.span_eq_seed hrest' hstart hstop
  rw [top, top, hslice, hslice']

/-- The lexemes of parses in front of others are read as their forms, **also if the others are
rejected at once**. -/
theorem LexemeStream.read_behind {ps : List Parse} (hps : ∀ p ∈ ps, p.Paired) (t : Text)
    (s : LexemeStream) :
    (s.behind (ps.flatMap Parse.lexemes)).read t
      = (s.read t).map (ps.map (Parse.top t) ++ ·) := by
  rcases s.rejected_or with ⟨x, rfl⟩ | hs
  · by_cases hnil : ps = []
    · subst hnil
      rfl
    · -- the rejection is met when the last of the forms is read
      obtain ⟨p, hp⟩ := List.exists_mem_of_ne_nil ps hnil
      have hne : ps.flatMap Parse.lexemes ++ [] ≠ [] := by
        simpa using ⟨p, hp, p.lexemes_ne_nil⟩
      rw [read_eq (.inr hne)]
      exact Reader.readAll_rejected hps hnil rfl (List.append_nil _)
  · have hs' : s.rejection = none ∨ ps.flatMap Parse.lexemes ++ s.lexemes ≠ [] :=
      hs.imp_right (List.append_ne_nil_of_right_ne_nil _)
    rw [read_eq hs, read_eq (s := s.behind _) hs']
    exact Reader.readAll_append hps hs rfl

theorem LexemeStream.read_shift (front t : Text) (s : LexemeStream) :
    (s.shift front.length (byteSize front)).read (front ++ t)
      = (s.read t).map (List.map (TopForm.shift front.length)) := by
  rcases s.rejected_or with ⟨x, rfl⟩ | hs
  · rfl
  · have hs' : s.rejection = none
        ∨ s.lexemes.map (Lexeme.shift front.length (byteSize front)) ≠ [] := by
      simpa using hs
    rw [read_eq hs, read_eq hs']
    exact Reader.readAll_behind front ⟨t, s.lexemes, s.rejection⟩

/-- **The forms of two texts with a line break between them**, if the first one can be read. -/
theorem readForms_append {t₁ : Text} {firstLine : Nat} {tops : List TopForm}
    (h : readForms t₁ firstLine = .ok tops) (t₂ : Text) :
    readForms (t₁ ++ '\n' :: t₂) firstLine
      = (readForms t₂ (firstLine + newlines t₁ + 1)).map fun more =>
          tops ++ more.map (TopForm.shift (t₁.length + 1)) := by
  obtain ⟨ps, hps, rfl⟩ := readForms_eq_ok_iff.1 h
  have htops : ps.map (Parse.top (t₁ ++ '\n' :: t₂)) = ps.map (Parse.top t₁) :=
    List.map_congr_left fun p hp => (hps.standsIn hp).top_append _
  have hlength : (t₁ ++ ['\n']).length = t₁.length + 1 := List.length_append
  have hsize : byteSize (t₁ ++ ['\n']) = byteSize t₁ + 1 := byteSize_append ..
  have hshift := LexemeStream.read_shift (t₁ ++ ['\n']) t₂
    (LexemeStream.ofText t₂ (firstLine + newlines t₁ + 1))
  rw [hlength, hsize, List.append_assoc, List.singleton_append] at hshift
  rw [readForms_eq_read, readForms_eq_read, LexemeStream.ofText_append hps.stream,
    LexemeStream.read_behind hps.paired, htops, hshift]
  cases (LexemeStream.ofText t₂ (firstLine + newlines t₁ + 1)).read t₂ <;> rfl

/-! ### Documents -/

theorem TopForm.attribute_shift (o : Options) (firstLine chars : Nat) (top : TopForm) :
    (top.shift chars).attribute o
      = (top.attribute { o with firstLine := firstLine }).mapSpans (Span.shift 0 chars) :=
  Form.attributeFrom_shift { o with firstLine := firstLine } o.firstLine 0 chars _ top.form top.seed

/-- **Documents compose.**  If the first text can be read, the second one behind a line break is
attributed as it would be alone, on the lines on which it then stands: with the same forms, the same
nodes located, and spans that differ in their offsets only; and if it cannot be read, for the same
reason at the same place. -/
theorem attributeText_append (o : Options) {t₁ : Text} {tops : List TopForm}
    (h : readForms t₁ o.firstLine = .ok tops) (t₂ : Text) :
    let o₂ := { o with firstLine := o.firstLine + newlines t₁ + 1 }
    ∃ as₁, attributeText o t₁ = .ok as₁
      ∧ (∀ as₂, attributeText o₂ t₂ = .ok as₂ →
          attributeText o (t₁ ++ '\n' :: t₂)
            = .ok (as₁ ++ as₂.map (Attributed.mapSpans (Span.shift 0 (t₁.length + 1)))))
      ∧ ∀ e, attributeText o₂ t₂ = .error e → attributeText o (t₁ ++ '\n' :: t₂) = .error e := by
  intro o₂
  have hmore (more : List TopForm) :
      (more.map (TopForm.shift (t₁.length + 1))).map (TopForm.attribute o)
        = (more.map (TopForm.attribute o₂)).map
            (Attributed.mapSpans (Span.shift 0 (t₁.length + 1))) := by
    rw [List.map_map, List.map_map]
    exact List.map_congr_left fun top _ => top.attribute_shift o _ _
  have hboth : attributeText o (t₁ ++ '\n' :: t₂)
      = (attributeText o₂ t₂).map fun as₂ => tops.map (TopForm.attribute o)
          ++ as₂.map (Attributed.mapSpans (Span.shift 0 (t₁.length + 1))) := by
    rw [attributeText, attributeText, readForms_append h t₂]
    cases readForms t₂ o₂.firstLine with
    | error why => rfl
    | ok more => simp only [Except.map, List.map_append, hmore]
  have hfirst : attributeText o t₁ = .ok (tops.map (TopForm.attribute o)) := by
    rw [attributeText, h]
    rfl
  refine ⟨_, hfirst, ?_, ?_⟩
  · intro as₂ h₂
    rw [hboth, h₂]
    rfl
  · intro e h₂
    rw [hboth, h₂]
    rfl

/-- Behind a comment with an opening delimiter in it, which the line break ends: a text that can be
read, with a symbol inside its second form, and one that cannot. -/
theorem attributeText_append_comment :
    let o : Options := ⟨.sequential, .stop, 3⟩
    let o₂ : Options := ⟨.sequential, .stop, 4⟩
    let t₁ : Text := "(a) ;(".toList
    (∃ as₁ as₂, attributeText o t₁ = .ok as₁ ∧ attributeText o₂ "7 (b)".toList = .ok as₂
        ∧ attributeText o (t₁ ++ '\n' :: "7 (b)".toList)
          = .ok (as₁ ++ as₂.map (Attributed.mapSpans (Span.shift 0 7)))
        ∧ as₁[0]?.bind (·.spanAt? [0]) = some ⟨['a'], 3, 3, 1, 2⟩
        ∧ as₂[1]?.bind (·.spanAt? [0]) = some ⟨['b'], 4, 4, 3, 4⟩
        ∧ (as₁ ++ as₂.map (Attributed.mapSpans (Span.shift 0 7)))[2]?.bind (·.spanAt? [0])
          = some ⟨['b'], 4, 4, 10, 11⟩)
      ∧ attributeText o (t₁ ++ '\n' :: "b ]".toList) = .error (.unmatched .bracket ⟨4, 2⟩) := by
  intro o o₂ t₁
  -- what is attributed to a text is computed, and not the list that it is known to be
  have hspan {o : Options} {t : Text} {as : List Attributed} {i : Nat} {span : Option Span}
      (has : attributeText o t = .ok as)
      (h : ((attributeText o t).toOption.bind fun as => as[i]?.bind (·.spanAt? [0])) = span) :
      as[i]?.bind (·.spanAt? [0]) = span := by
    rw [← h, has]
    rfl
  obtain ⟨tops, h⟩ := exists_readForms t₁ 3 (by decide +kernel)
  obtain ⟨more, hmore⟩ := exists_readForms "7 (b)".toList 4 (by decide +kernel)
  have hfault : attributeText o₂ "b ]".toList = .error (.unmatched .bracket ⟨4, 2⟩) := by
    have hread : readForms "b ]".toList 4 = .error (.unmatched .bracket ⟨4, 2⟩) :=
      readForms_eq_error _ _ (by decide +kernel)
    rw [attributeText, hread]
    rfl
  have hok : attributeText o₂ "7 (b)".toList = .ok (more.map (TopForm.attribute o₂)) := by
    rw [attributeText, hmore]
    rfl
  obtain ⟨as₁, h₁, happend, -⟩ := attributeText_append o h "7 (b)".toList
  obtain ⟨-, -, -, hrefused⟩ := attributeText_append o h "b ]".toList
  refine ⟨⟨as₁, _, h₁, hok, happend _ hok, ?_, ?_, ?_⟩, hrefused _ hfault⟩
  · exact hspan h₁ (by decide +kernel)
  · exact hspan hok (by decide +kernel)
  · exact hspan (happend _ hok) (by decide +kernel)

end EdnSpans
