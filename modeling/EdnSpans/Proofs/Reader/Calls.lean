/-
**Calls of a reader, one after another.**

A reader can be asked for the next form or for all forms that are left, in any order and also after
a fault.  To ask for all forms is to ask for the next one until there is none; so whatever is asked,
the next form is asked for so many times, and what holds of all calls follows from what holds of
one.  Every such call that gives a form or a fault takes lexemes, and the form stands where they
stand.  When no lexeme is left, there is nothing more to come, and none is left when something has
been rejected.

A reader with one lexeme ahead gives the same answers.  So it always has a lexeme when one is to be
taken, it cuts the sources out of the text between characters, and every call ends with fuel for two
steps per lexeme.

Main definitions:

* `EdnSpans.Call`, `EdnSpans.Answer` — what a reader is asked, and what it gives;
* `EdnSpans.Reader.answers`, `EdnSpans.Lookahead.answers` — **what calls give, one after another**;
* `EdnSpans.Reader.asked` — the same, as calls for the next form;
* `EdnSpans.Orderly` — answers that stand in the order of the text, and end with it.

Main results:

* `EdnSpans.Lookahead.Simulates.answers` — both readers give the same answers;
* `EdnSpans.Reader.readMany_asked` — calls of all sorts are so many calls for the next form;
* `EdnSpans.Reader.StandsAt.readMany_ordered`, `EdnSpans.Reader.countP_readMany` — the forms stand
  one behind the other, and there are no more forms and faults than lexemes;
* `EdnSpans.Reader.answers_silent` — nothing comes after the last answer;
* `EdnSpans.orderly_answers` — **the calls of a reader of any text**.
-/
import EdnSpans.Proofs.Reader.Descent

set_option relaxedAutoImplicit false
set_option autoImplicit false

namespace EdnSpans

/-! ### Calls and answers -/

/-- A call of a reader. -/
inductive Call
  /-- The next form is asked for. -/
  | form
  /-- All forms that are left are asked for. -/
  | all

/-- What comes of asking for the next form: a form, none at the end of the text, or a fault. -/
abbrev Outcome (ε : Type) := Except ε (Option TopForm)

/-- What a call gives. -/
inductive Answer (ε : Type)
  /-- The next form. -/
  | form (outcome : Outcome ε)
  /-- All forms that are left, or the first fault among them. -/
  | all (outcome : Except ε (List TopForm))

namespace Answer

variable {ε ε' : Type}

/-- The answer with its fault put in other words. -/
def mapError (f : ε → ε') : Answer ε → Answer ε'
  | .form outcome => .form (outcome.mapError f)
  | .all outcome => .all (outcome.mapError f)

/-- The fault, if there is one. -/
def error? : Answer ε → Option ε
  | .form (.error e) => some e
  | .all (.error e) => some e
  | _ => none

/-- The forms. -/
def tops : Answer ε → List TopForm
  | .form (.ok top) => top.toList
  | .all (.ok tops) => tops
  | _ => []

/-- Neither a form nor a fault. -/
def IsEmpty : Answer ε → Prop
  | .form outcome => outcome = .ok none
  | .all outcome => outcome = .ok []

/-- There is no form left, or something that is no lexeme has been met. -/
def IsLast : Answer Halt → Prop
  | .form outcome => outcome = .ok none ∨ ∃ x, outcome = .error (.fault (.rejected x))
  | .all outcome => (∃ tops, outcome = .ok tops) ∨ ∃ x, outcome = .error (.fault (.rejected x))

end Answer

namespace Reader

/-- What a call gives. -/
def answer (r : Reader) : Call → Answer ReadFault
  | .form => .form r.readForm.1
  | .all => .all r.readAll

/-- What comes of asking for the next form, every time that a call does so, and the reader after
the call. -/
def asks (r : Reader) : Call → List (Outcome ReadFault) × Reader
  | .form => r.readMany 1
  | .all => r.exhaust

/-- What calls give, one after another. -/
def answers (r : Reader) : List Call → List (Answer ReadFault)
  | [] => []
  | c :: calls => r.answer c :: (r.asks c).2.answers calls

/-- What comes of asking for the next form, every time that one of the calls does so. -/
def asked (r : Reader) : List Call → List (Outcome ReadFault)
  | [] => []
  | c :: calls => (r.asks c).1 ++ (r.asks c).2.asked calls

end Reader

/-! ### Calls as calls for the next form -/

namespace Outcome

variable {ε : Type}

/-- The form. -/
def top? : Outcome ε → Option TopForm
  | .ok top => top
  | .error _ => none

/-- There is a form or a fault. -/
def yields : Outcome ε → Bool
  | .ok none => false
  | _ => true

/-- There is no form left, or something that is no lexeme has been met. -/
def IsLast (o : Outcome ReadFault) : Prop := o = .ok none ∨ ∃ x, o = .error (.rejected x)

end Outcome

namespace Reader

theorem readMany_succ (n : Nat) (r : Reader) :
    r.readMany (n + 1)
      = (r.readForm.1 :: (r.readForm.2.readMany n).1, (r.readForm.2.readMany n).2) := rfl

theorem readMany_add (m n : Nat) (r : Reader) :
    r.readMany (m + n)
      = ((r.readMany m).1 ++ ((r.readMany m).2.readMany n).1, ((r.readMany m).2.readMany n).2) := by
  induction m generalizing r with
  | zero =>
      rw [Nat.zero_add]
      rfl
  | succ m ih =>
      rw [Nat.succ_add, readMany_succ, readMany_succ, ih]
      rfl

theorem readMany_exhaust (r : Reader) : r.readMany r.exhaust.1.length = r.exhaust := by
  fun_induction readAll r with
  | case1 r r' hform =>
      rw [exhaust_of_none hform, List.length_singleton, readMany_succ, hform]
      rfl
  | case2 r top r' hform ih =>
      rw [exhaust_of_some hform, List.length_cons, readMany_succ, hform, ih]
  | case3 r why r' hform =>
      rw [exhaust_of_error hform, List.length_singleton, readMany_succ, hform]
      rfl

theorem readMany_asks (r : Reader) (c : Call) : r.readMany (r.asks c).1.length = r.asks c := by
  cases c with
  | form => rfl
  | all => exact r.readMany_exhaust

theorem pending_readMany_suffix (n : Nat) (r : Reader) :
    (r.readMany n).2.pending <:+ r.pending := by
  induction n generalizing r with
  | zero => exact List.suffix_refl _
  | succ n ih => exact (ih r.readForm.2).trans r.pending_readForm_suffix

theorem length_pending_asks (r : Reader) (c : Call) :
    (r.asks c).2.pending.length ≤ r.pending.length := by
  rw [← r.readMany_asks c]
  exact (pending_readMany_suffix _ r).length_le

/-- Calls of all sorts are **so many calls for the next form**. -/
theorem readMany_asked (r : Reader) (calls : List Call) :
    (r.readMany (r.asked calls).length).1 = r.asked calls := by
  induction calls generalizing r with
  | nil => rfl
  | cons c calls ih => rw [asked, List.length_append, readMany_add, readMany_asks, ih]

end Reader

/-! ### Both readers -/

namespace Lookahead

/-- What a call gives, and the reader after it. -/
def answer (fuel : Nat) (s : Lookahead) : Call → Answer Halt × Lookahead
  | .form => Prod.map .form id (Descent.run (Descent.readForm fuel) s)
  | .all => Prod.map .all id (Descent.run (Descent.readAll fuel) s)

/-- What calls give, one after another. -/
def answers (fuel : Nat) (s : Lookahead) : List Call → List (Answer Halt)
  | [] => []
  | c :: calls => (s.answer fuel c).1 :: (s.answer fuel c).2.answers fuel calls

variable {firstLine fuel : Nat} {s : Lookahead} {r : Reader}

theorem Simulates.answer (h : s.Simulates firstLine r) (hfuel : 2 * r.pending.length + 1 ≤ fuel)
    (c : Call) :
    (s.answer fuel c).1 = (r.answer c).mapError Halt.fault
      ∧ (s.answer fuel c).2.Simulates firstLine (r.asks c).2 := by
  cases c with
  | form =>
      obtain ⟨s', hrun, hs'⟩ := h.readForm (Nat.le_of_succ_le hfuel)
      rw [Lookahead.answer, hrun]
      exact ⟨rfl, hs'⟩
  | all =>
      obtain ⟨s', hrun, hs'⟩ := h.readAll hfuel
      rw [Lookahead.answer, hrun]
      exact ⟨rfl, hs'⟩

/-- Both readers give **the same answers**. -/
theorem Simulates.answers (h : s.Simulates firstLine r) (hfuel : 2 * r.pending.length + 1 ≤ fuel)
    (calls : List Call) :
    s.answers fuel calls = (r.answers calls).map (Answer.mapError Halt.fault) := by
  induction calls generalizing s r with
  | nil => rfl
  | cons c calls ih =>
      obtain ⟨hanswer, hafter⟩ := h.answer hfuel c
      have hlength := r.length_pending_asks c
      rw [Lookahead.answers, Reader.answers, List.map_cons, hanswer, ih hafter (by omega)]

end Lookahead

/-! ### One call for the next form -/

/-- A move has no rejection for its fault. -/
theorem Move.of_ne_rejected (stack : List Frame) (l : Lexeme) (x : Rejection) :
    Move.of stack l ≠ .fault (.rejected x) := by
  intro h
  simp only [Move.of, Move.close, Move.deliver] at h
  repeat' split at h
  all_goals simp at h

/-- Nothing is left behind a rejection. -/
theorem readTree_rest_of_rejected {rejection : Option Rejection} {stack : List Frame} {l : Lexeme}
    {rest : List Lexeme} {x : Rejection}
    (h : (readTree rejection stack l rest).outcome = .error (.rejected x)) :
    (readTree rejection stack l rest).rest = [] := by
  induction rest generalizing stack l with
  | nil =>
      have hlength := length_rest_readTree rejection stack l []
      exact List.eq_nil_of_length_eq_zero (Nat.le_zero.1 hlength)
  | cons l' rest ih =>
      rw [readTree] at h ⊢
      cases hmove : Move.of stack l with
      | complete form => simp [hmove] at h
      | pending top below =>
          simp only [hmove] at h ⊢
          exact ih h
      | fault why =>
          simp only [hmove] at h
          obtain rfl := Except.error.inj h
          exact absurd hmove (Move.of_ne_rejected stack l x)

namespace Reader

variable {firstLine : Nat} {k : Cursor} {r : Reader}

/-- No lexeme is left **behind the last outcome**. -/
theorem pending_of_isLast (h : Outcome.IsLast r.readForm.1) : r.readForm.2.pending = [] := by
  rcases h with hnone | ⟨x, hx⟩
  · have hr : r.readForm = (.ok none, r.readForm.2) := Prod.ext hnone rfl
    have hpending := pending_of_readForm_none hr
    rw [readForm_of_nil hpending]
    exact hpending
  · cases hpending : r.pending with
    | nil => simp [readForm_of_nil hpending] at hx
    | cons l rest =>
        rcases hreading : readTree r.rejection [] l rest with ⟨why | read, rest'⟩
        · rw [readForm_of_error hpending hreading] at hx ⊢
          obtain rfl := Except.error.inj hx
          have hrest := readTree_rest_of_rejected (congrArg TreeReading.outcome hreading)
          rwa [hreading] at hrest
        · rw [readForm_of_ok hpending hreading] at hx
          cases hx

/-- The form that is read stands **between the places before and after it**. -/
theorem StandsAt.readForm_seed (h : r.StandsAt firstLine k) :
    ∃ k', r.readForm.2.StandsAt firstLine k' ∧ k.position.offset ≤ k'.position.offset
      ∧ ∀ top, Outcome.top? r.readForm.1 = some top →
        k.position.offset ≤ top.seed.start ∧ top.seed.stop ≤ k'.position.offset := by
  obtain ⟨taken, k', htaken, hrun, hk'⟩ := h.readForm
  refine ⟨k', hk', hrun.offset_le, ?_⟩
  intro top htop
  have hform : r.readForm = (.ok (some top), r.readForm.2) := by
    refine Prod.ext ?_ rfl
    cases houtcome : r.readForm.1 with
    | error why => simp [houtcome, Outcome.top?] at htop
    | ok found =>
        rw [houtcome] at htop
        exact congrArg Except.ok htop
  obtain ⟨p, -, rfl, hpending, -⟩ := readForm_eq_some hform
  obtain rfl : taken = p.lexemes := List.append_cancel_right (htaken.symm.trans hpending)
  obtain ⟨gap, body, hrest, hstart, hstop, hend, -⟩ := hrun.extent
  have hsource := (h.1.span_eq_seed hrest hstart hstop).2
  have hoffset : p.extent.start.offset = k.position.offset + gap.length := by
    rw [hstart, Position.offset_after]
  have hposition : k'.position.offset = p.extent.start.offset + body.length := by
    rw [hend, hstop, Position.offset_after]
  simp only [Parse.top, Span.seed, hsource]
  omega

/-! ### Many calls for the next form -/

/-- The forms that are read stand **one behind the other**, behind all that was read before. -/
theorem StandsAt.readMany_ordered (h : r.StandsAt firstLine k) (n : Nat) :
    ((r.readMany n).1.filterMap Outcome.top?).Pairwise (fun a b => a.seed.stop ≤ b.seed.start)
      ∧ ∀ top ∈ (r.readMany n).1.filterMap Outcome.top?, k.position.offset ≤ top.seed.start := by
  induction n generalizing r k with
  | zero => exact ⟨.nil, by simp [readMany]⟩
  | succ n ih =>
      obtain ⟨k', hk', hle, hseed⟩ := h.readForm_seed
      obtain ⟨hpairwise, hbehind⟩ := ih hk'
      rw [readMany_succ]
      cases htop : Outcome.top? r.readForm.1 with
      | none =>
          rw [List.filterMap_cons_none htop]
          refine ⟨hpairwise, ?_⟩
          intro top hmem
          exact Nat.le_trans hle (hbehind top hmem)
      | some first =>
          obtain ⟨hstart, hstop⟩ := hseed first htop
          rw [List.filterMap_cons_some htop]
          refine ⟨List.pairwise_cons.2 ⟨?_, hpairwise⟩, ?_⟩
          · intro top hmem
            exact Nat.le_trans hstop (hbehind top hmem)
          · intro top hmem
            rcases List.mem_cons.1 hmem with rfl | hmem
            · exact hstart
            · exact Nat.le_trans hle (hbehind top hmem)

/-- There are **no more forms and faults than lexemes**. -/
theorem countP_readMany (r : Reader) (n : Nat) :
    (r.readMany n).1.countP Outcome.yields ≤ r.pending.length := by
  induction n generalizing r with
  | zero => exact Nat.zero_le _
  | succ n ih =>
      have hmore := ih r.readForm.2
      rw [readMany_succ, List.countP_cons]
      by_cases hyields : Outcome.yields r.readForm.1 = true
      · have hlength : r.readForm.2.pending.length < r.pending.length := by
          refine length_pending_readForm ?_
          intro hnone
          rw [hnone] at hyields
          cases hyields
        rw [if_pos hyields]
        omega
      · have hlength := r.pending_readForm_suffix.length_le
        rw [if_neg hyields]
        omega

end Reader

/-! ### Answers -/

theorem eq_ok_of_mapError {α : Type} {outcome : Except ReadFault α} {a : α}
    (h : outcome.mapError Halt.fault = .ok a) : outcome = .ok a := by
  cases outcome with
  | ok b => exact congrArg Except.ok (Except.ok.inj h)
  | error why => cases h

theorem eq_error_of_mapError {α : Type} {outcome : Except ReadFault α} {why : ReadFault}
    (h : outcome.mapError Halt.fault = .error (.fault why)) : outcome = .error why := by
  cases outcome with
  | ok a => cases h
  | error why' => exact congrArg Except.error (Halt.fault.inj (Except.error.inj h))

namespace Reader

variable {firstLine : Nat} {k : Cursor} {r : Reader}

/-- All forms that are left are those that come of **asking for the next form until there is
none**. -/
theorem readAll_eq_filterMap {tops : List TopForm} (h : r.readAll = .ok tops) :
    tops = r.exhaust.1.filterMap Outcome.top? := by
  fun_induction readAll r generalizing tops with
  | case1 r r' hform =>
      rw [exhaust_of_none hform]
      cases h
      rfl
  | case2 r top r' hform ih =>
      rw [exhaust_of_some hform]
      cases hmore : r'.readAll with
      | error why => simp [hmore, Except.map] at h
      | ok more =>
          obtain rfl : top :: more = tops := by simpa [hmore, Except.map] using h
          rw [ih hmore]
          rfl
  | case3 r why r' hform => cases h

theorem tops_answer (r : Reader) (c : Call) :
    (r.answer c).tops.Sublist ((r.asks c).1.filterMap Outcome.top?) := by
  cases c with
  | form =>
      cases hform : r.readForm.1 with
      | error why => simp [answer, hform, Answer.tops]
      | ok found => cases found <;> simp [answer, asks, readMany, hform, Answer.tops, Outcome.top?]
  | all =>
      cases hall : r.readAll with
      | error why => simp [answer, hall, Answer.tops]
      | ok tops =>
          have htops : (r.answer .all).tops = r.exhaust.1.filterMap Outcome.top? := by
            rw [← readAll_eq_filterMap hall, answer, hall]
            rfl
          exact htops ▸ List.Sublist.refl _

/-- The forms of all answers come of asking for the next form. -/
theorem tops_answers (r : Reader) (calls : List Call) :
    ((r.answers calls).flatMap Answer.tops).Sublist ((r.asked calls).filterMap Outcome.top?) := by
  induction calls generalizing r with
  | nil => exact List.Sublist.refl _
  | cons c calls ih =>
      rw [answers, asked, List.flatMap_cons, List.filterMap_append]
      exact (r.tops_answer c).append (ih _)

/-- No lexeme is left when all forms were read, or something was rejected. -/
theorem pending_exhaust
    (h : (∃ tops, r.readAll = .ok tops) ∨ ∃ x, r.readAll = .error (.rejected x)) :
    r.exhaust.2.pending = [] := by
  fun_induction readAll r with
  | case1 r r' hform =>
      have hpending := pending_of_isLast (r := r) (by rw [hform]; exact .inl rfl)
      rw [exhaust_of_none hform]
      rwa [hform] at hpending
  | case2 r top r' hform ih =>
      rw [exhaust_of_some hform]
      refine ih ?_
      cases hmore : r'.readAll with
      | ok more => exact .inl ⟨more, rfl⟩
      | error why => simpa [hmore, Except.map] using h
  | case3 r why r' hform =>
      obtain ⟨x, rfl⟩ : ∃ x, why = .rejected x := by simpa using h
      have hpending := pending_of_isLast (r := r) (by rw [hform]; exact .inr ⟨x, rfl⟩)
      rw [exhaust_of_error hform]
      rwa [hform] at hpending

/-- No lexeme is left **behind the last answer**. -/
theorem pending_of_answer_isLast {c : Call} (h : ((r.answer c).mapError Halt.fault).IsLast) :
    (r.asks c).2.pending = [] := by
  cases c with
  | form =>
      refine pending_of_isLast ?_
      rcases h with hnone | ⟨x, hx⟩
      · exact .inl (eq_ok_of_mapError hnone)
      · exact .inr ⟨x, eq_error_of_mapError hx⟩
  | all =>
      refine pending_exhaust ?_
      rcases h with ⟨tops, hall⟩ | ⟨x, hx⟩
      · exact .inl ⟨tops, eq_ok_of_mapError hall⟩
      · exact .inr ⟨x, eq_error_of_mapError hx⟩

/-- **Nothing comes** when no lexeme is left. -/
theorem answers_of_nil (h : r.pending = []) (calls : List Call) :
    ∀ a ∈ r.answers calls, a.IsEmpty := by
  have hform := readForm_of_nil h
  induction calls with
  | nil => simp [answers]
  | cons c calls ih =>
      intro a hmem
      rcases List.mem_cons.1 hmem with rfl | hmem
      · cases c with
        | form =>
            rw [answer, hform]
            rfl
        | all =>
            rw [answer, readAll_of_none hform]
            rfl
      · have hstays : (r.asks c).2 = r := by
          cases c with
          | form => rw [asks, readMany_succ, hform]; rfl
          | all => rw [asks, exhaust_of_none hform]
        rw [hstays] at hmem
        exact ih a hmem

/-- **Nothing comes after the last answer**. -/
theorem answers_silent (r : Reader) (calls : List Call) :
    (r.answers calls).Pairwise fun a b => (a.mapError Halt.fault).IsLast → b.IsEmpty := by
  induction calls generalizing r with
  | nil => exact .nil
  | cons c calls ih =>
      refine List.pairwise_cons.2 ⟨?_, ih _⟩
      intro a hmem hlast
      exact answers_of_nil (pending_of_answer_isLast hlast) calls a hmem

end Reader

/-! ### Texts -/

/-- Answers that calls may give one after another. -/
structure Orderly (answers : List (Answer Halt)) : Prop where
  /-- Only faults of the text are reported, and none with the number of the other two reports. -/
  reported : ∀ a ∈ answers, ∀ e, a.error? = some e →
    ∃ why d, e = .fault why ∧ e.diagnostic? = some d ∧ d.code ≠ some 201
  /-- The forms stand one behind the other. -/
  ordered : (answers.flatMap Answer.tops).Pairwise fun a b => a.seed.stop ≤ b.seed.start
  /-- Nothing comes after the last form, and nothing after a rejection. -/
  silent : answers.Pairwise fun a b => a.IsLast → b.IsEmpty

namespace Answer

variable {ε ε' : Type}

@[simp] theorem tops_mapError (f : ε → ε') (a : Answer ε) : (a.mapError f).tops = a.tops := by
  rcases a with (_ | _) | (_ | _) <;> rfl

@[simp] theorem error?_mapError (f : ε → ε') (a : Answer ε) :
    (a.mapError f).error? = a.error?.map f := by
  rcases a with (_ | _) | (_ | _) <;> rfl

theorem IsEmpty.mapError {a : Answer ε} (h : a.IsEmpty) (f : ε → ε') : (a.mapError f).IsEmpty := by
  cases a with
  | form outcome =>
      obtain rfl : outcome = .ok none := h
      rfl
  | all outcome =>
      obtain rfl : outcome = .ok [] := h
      rfl

end Answer

theorem ReadFault.code_ne (why : ReadFault) : why.diagnostic.code ≠ some 201 := by
  cases why with
  | rejected x =>
      obtain ⟨reason, place⟩ := x
      cases reason <;> simp [ReadFault.diagnostic, Rejection.diagnostic]
  | unmatched closer place => simp [ReadFault.diagnostic]
  | unclosed kind place => simp [ReadFault.diagnostic]
  | oddMap count place => simp [ReadFault.diagnostic]

theorem Reader.StandsAt.orderly {firstLine : Nat} {k : Cursor} {r : Reader}
    (h : r.StandsAt firstLine k) (calls : List Call) :
    Orderly ((r.answers calls).map (Answer.mapError Halt.fault)) := by
  refine ⟨?_, ?_, ?_⟩
  · intro a hmem e he
    obtain ⟨b, -, rfl⟩ := List.mem_map.1 hmem
    rw [Answer.error?_mapError] at he
    obtain ⟨why, -, rfl⟩ := Option.map_eq_some_iff.1 he
    exact ⟨why, why.diagnostic, rfl, rfl, why.code_ne⟩
  · have hordered := (h.readMany_ordered (r.asked calls).length).1
    rw [r.readMany_asked calls] at hordered
    simpa [List.flatMap_map] using hordered.sublist (r.tops_answers calls)
  · refine List.pairwise_map.2 ((r.answers_silent calls).imp ?_)
    intro a b hempty hlast
    exact (hempty hlast).mapError Halt.fault

/-- Whatever a reader is asked, and however often, **its answers are those of a reader with one
lexeme ahead**, all of whose calls end with fuel for two steps per lexeme.  Nothing but a fault of
the text is ever reported, the forms stand one behind the other, and nothing comes after the last
form or after a rejection.  Asking for the next form gives a form or a fault at most as often as
there are lexemes. -/
theorem orderly_answers {t : Text} {firstLine fuel : Nat} {r : Reader}
    (h : Reader.ofText t firstLine = .ok r)
    (hfuel : 2 * (LexemeStream.ofText t firstLine).lexemes.length + 1 ≤ fuel) (calls : List Call) :
    ∃ s, Lookahead.ofText t firstLine = .ok s
      ∧ s.answers fuel calls = (r.answers calls).map (Answer.mapError Halt.fault)
      ∧ Orderly (s.answers fuel calls)
      ∧ (r.asked calls).countP Outcome.yields
        ≤ (LexemeStream.ofText t firstLine).lexemes.length := by
  have hboth := Lookahead.ofText_simulates t firstLine
  rw [h] at hboth
  obtain ⟨s, hs, hsimulates⟩ := hboth
  obtain ⟨k, hk⟩ := hsimulates.standsAt
  rw [← Reader.pending_ofText h] at hfuel ⊢
  have hanswers := hsimulates.answers hfuel calls
  refine ⟨s, hs, hanswers, ?_, ?_⟩
  · rw [hanswers]
    exact hk.orderly calls
  · have hcount := r.countP_readMany (r.asked calls).length
    rwa [r.readMany_asked calls] at hcount

/-- A form, a closing delimiter that closes nothing, a collection with a string inside that the text
does not end, and a call after that. -/
theorem orderly_answers_open_string :
    let t : Text := "λ ] (b \"".toList
    let calls : List Call := [.form, .form, .all, .form]
    (LexemeStream.ofText t 1).lexemes.length = 4
      ∧ ∃ r s, Reader.ofText t 1 = .ok r ∧ Lookahead.ofText t 1 = .ok s
        ∧ s.answers 9 calls = (r.answers calls).map (Answer.mapError Halt.fault)
        ∧ Orderly (s.answers 9 calls)
        ∧ (r.asked calls).countP Outcome.yields ≤ 4 := by
  intro t calls
  have hlength : (LexemeStream.ofText t 1).lexemes.length = 4 := by decide +kernel
  have hfuel : 2 * (LexemeStream.ofText t 1).lexemes.length + 1 ≤ 9 := by omega
  have hok : (Reader.ofText t 1).isOk := by decide +kernel
  cases h : Reader.ofText t 1 with
  | error why =>
      rw [h] at hok
      cases hok
  | ok r =>
      obtain ⟨s, hs, hanswers, horderly, hcount⟩ := orderly_answers h hfuel calls
      exact ⟨hlength, r, s, rfl, hs, hanswers, horderly, hlength ▸ hcount⟩

end EdnSpans
