/-
**The scan for the balancing delimiter is decided by the text it covers.**

The scan looks at one character after another and never behind the delimiter at which it stops.  So
what stands there has no say, and a text that is cut before the delimiter is not enough: the scan is
at the end of such a text before it can stop.

The scan may also be written with loops inside a loop, which share what is left of the text: one
loop skips a string and one skips a comment, and the outer one counts the delimiters.  The counter
is an integer here, so it might well fall below zero.  It never does, since the outer loop is left
at a closing delimiter when the counter is zero; and it never exceeds the number of characters.

Main definitions:

* `EdnSpans.Balancer` — what is left of a text and a counter, the state of the outer loop;
* `EdnSpans.Balancer.turn`, `EdnSpans.Balancer.run` — once around the loop, and the loop;
* `EdnSpans.Balancer.Turns` — what may become of the loop, case by case;
* `EdnSpans.Balancer.Reaches` — the states that the loop comes to;
* `EdnSpans.DecidedBy` — **the end of a scan is decided by the text before it**.

Main results:

* `EdnSpans.balancedLength?_take`, `EdnSpans.balancedLength?_eq_none` — what stands behind the
  delimiter does not matter, and what stands before it is not enough;
* `EdnSpans.Balancer.Reaches.counts` — **the counter is never below zero**;
* `EdnSpans.Balancer.run_eq` — the loops find what the scan finds;
* `EdnSpans.balance_decided` — the scan from a byte of a text, for every closing delimiter.
-/
import EdnSpans.Proofs.Locate.Locator

set_option relaxedAutoImplicit false
set_option autoImplicit false

namespace EdnSpans

open Text

/-! ### What the scan has seen -/

section Prefixes

variable {close : Char} {mode : Mode} {depth n : Nat} {t : Text}

/-- The scan stops where it stopped, **whatever stands behind**. -/
theorem balancedLength?_take (h : balancedLength? close mode depth t = some n) (s : Text) :
    balancedLength? close mode depth (t.take n ++ s) = some n := by
  induction t generalizing mode depth n with
  | nil => simp [balancedLength?] at h
  | cons c t ih =>
      -- the first character is seen again, and the scan goes on as it did
      have step {mode' : Mode} {depth' : Nat}
          (h' : (balancedLength? close mode' depth' t).map (· + 1) = some n) :
          ∃ m, n = m + 1
            ∧ (balancedLength? close mode' depth' (t.take m ++ s)).map (· + 1) = some n := by
        obtain ⟨m, hm, rfl⟩ := Option.map_eq_some_iff.1 h'
        exact ⟨m, rfl, by rw [ih hm]; rfl⟩
      unfold balancedLength? at h
      split at h
      · next hopen =>
          obtain ⟨rfl, hc⟩ := hopen
          obtain ⟨m, rfl, hm⟩ := step h
          rw [List.take_succ_cons, List.cons_append, balancedLength?_opening _ _ hc, hm]
      · next hopen =>
          split at h
          · next hclose =>
              split at h
              · split at h
                · next hc =>
                    obtain rfl := Option.some.inj h
                    rw [List.take_succ_cons, List.cons_append, balancedLength?, if_neg hopen,
                      if_pos hclose, if_pos hc]
                · cases h
              · obtain ⟨m, rfl, hm⟩ := step h
                rw [List.take_succ_cons, List.cons_append, balancedLength?, if_neg hopen,
                  if_pos hclose, hm]
          · next hclose =>
              have hother : mode = .code → isOpening c = false ∧ isClosing c = false := by
                rintro rfl
                exact ⟨by simpa using hopen, by simpa using hclose⟩
              obtain ⟨m, rfl, hm⟩ := step h
              rw [List.take_succ_cons, List.cons_append, balancedLength?_other _ _ hother, hm]

/-- What stands before the delimiter **is not enough**. -/
theorem balancedLength?_eq_none {front rest : Text}
    (h : balancedLength? close mode depth (front ++ rest) = some n) (hlt : front.length < n) :
    balancedLength? close mode depth front = none := by
  refine Option.eq_none_iff_forall_ne_some.2 fun m hm => ?_
  have hle := (balancedLength?_bounds hm).2
  have hagain := balancedLength?_take hm (front.drop m ++ rest)
  rw [← List.append_assoc, List.take_append_drop, h] at hagain
  obtain rfl := Option.some.inj hagain
  omega

end Prefixes

/-! ### The loops -/

/-- What is left behind a string whose opening quote was passed, if the string is closed. -/
def skipString : Text → Option Text
  | [] => none
  | c :: t =>
      if c = '"' then some t
      else if c = '\\' then
        match t with
        | [] => none
        | _ :: t => skipString t
      else skipString t

/-- What is left behind a comment whose semicolon was passed. -/
def skipComment : Text → Text
  | [] => []
  | c :: t => if c = '\n' then t else skipComment t

/-- What is left of the text, and how many collections are open. -/
structure Balancer where
  /-- The text that is left. -/
  rest : Text
  /-- The opening delimiters that were passed, less the closing ones. -/
  depth : Int
  deriving DecidableEq, Repr

/-- What becomes of the loop. -/
inductive Balancer.Turn
  /-- It goes on. -/
  | goesOn (after : Balancer)
  /-- The delimiter was found, and the given text stands behind it. -/
  | found (behind : Text)
  /-- A delimiter of another kind stands in its place, or there is none. -/
  | failed

namespace Balancer

/-- Once around the loop. -/
def turn (close : Char) (k : Balancer) : Turn :=
  match k.rest with
  | [] => .failed
  | c :: t =>
      if c = '"' then
        match skipString t with
        | some rest => .goesOn ⟨rest, k.depth⟩
        | none => .failed
      else if c = '\\' then .goesOn ⟨t.drop 1, k.depth⟩
      else if c = ';' then .goesOn ⟨skipComment t, k.depth⟩
      else if isOpening c then .goesOn ⟨t, k.depth + 1⟩
      else if isClosing c then
        if k.depth = 0 then if c = close then .found t else .failed
        else .goesOn ⟨t, k.depth - 1⟩
      else .goesOn ⟨t, k.depth⟩

end Balancer

theorem skipString_length_lt {t rest : Text} (h : skipString t = some rest) :
    rest.length < t.length := by
  fun_induction skipString t with
  | case1 => cases h
  | case2 t =>
      obtain rfl := Option.some.inj h
      exact Nat.lt_succ_self _
  | case3 => cases h
  | case4 e t _ ih =>
      have := ih h
      simp only [List.length_cons]
      omega
  | case5 c t _ _ ih => exact Nat.lt_succ_of_lt (ih h)

theorem skipComment_length_le (t : Text) : (skipComment t).length ≤ t.length := by
  fun_induction skipComment t with
  | case1 => exact Nat.le_refl 0
  | case2 t => exact Nat.le_succ _
  | case3 c t _ ih => exact Nat.le_succ_of_le ih

namespace Balancer

variable {close : Char} {k m : Balancer}

/-- What becomes of the loop, **by what is left of the text**. -/
inductive Turns (close : Char) (depth : Int) : Text → Turn → Prop
  | ended : Turns close depth [] .failed
  | string {t rest : Text} (hrest : skipString t = some rest) :
      Turns close depth ('"' :: t) (.goesOn ⟨rest, depth⟩)
  | openString {t : Text} (hrest : skipString t = none) : Turns close depth ('"' :: t) .failed
  | literal {t : Text} : Turns close depth ('\\' :: t) (.goesOn ⟨t.drop 1, depth⟩)
  | comment {t : Text} : Turns close depth (';' :: t) (.goesOn ⟨skipComment t, depth⟩)
  | opening {c : Char} {t : Text} (hopen : isOpening c) :
      Turns close depth (c :: t) (.goesOn ⟨t, depth + 1⟩)
  | closing {c : Char} {t : Text} (hopen : isOpening c = false) (hclose : isClosing c)
      (hdepth : depth ≠ 0) : Turns close depth (c :: t) (.goesOn ⟨t, depth - 1⟩)
  | found {t : Text} (hopen : isOpening close = false) (hclose : isClosing close)
      (hdepth : depth = 0) : Turns close depth (close :: t) (.found t)
  | mismatched {c : Char} {t : Text} (hopen : isOpening c = false) (hclose : isClosing c)
      (hdepth : depth = 0) (hne : c ≠ close) : Turns close depth (c :: t) .failed
  | plain {c : Char} {t : Text} (hopen : isOpening c = false) (hclose : isClosing c = false)
      (hnext : Mode.code.next c = .code) : Turns close depth (c :: t) (.goesOn ⟨t, depth⟩)

/-- The list is complete. -/
theorem turns_turn (close : Char) (k : Balancer) : Turns close k.depth k.rest (k.turn close) := by
  obtain ⟨rest, depth⟩ := k
  cases rest with
  | nil => exact .ended
  | cons c t =>
      simp only [turn]
      split
      · next hc =>
          subst hc
          split
          · next hrest => exact .string hrest
          · next hrest => exact .openString hrest
      · split
        · next hc =>
            subst hc
            exact .literal
        · split
          · next hc =>
              subst hc
              exact .comment
          · next hquote hslash hsemi =>
              split
              · next hopen => exact .opening hopen
              · next hopen =>
                  have hopen : isOpening c = false := by simpa using hopen
                  split
                  · next hclose =>
                      split
                      · next hdepth =>
                          split
                          · next hc =>
                              subst hc
                              exact .found hopen hclose hdepth
                          · next hne => exact .mismatched hopen hclose hdepth hne
                      · next hdepth => exact .closing hopen hclose hdepth
                  · next hclose =>
                      refine .plain hopen (by simpa using hclose) ?_
                      simp [Mode.next, hquote, hslash, hsemi]

/-- Once around the loop: less is left, the counter **does not fall below zero**, and it grows by no
more than what was passed. -/
theorem counts_of_turn (h : k.turn close = .goesOn m) :
    m.rest.length < k.rest.length ∧ (0 ≤ k.depth → 0 ≤ m.depth)
      ∧ m.depth + m.rest.length ≤ k.depth + k.rest.length := by
  have hturns := turns_turn close k
  rw [h] at hturns
  obtain ⟨rest, depth⟩ := k
  simp only at hturns ⊢
  cases hturns with
  | string hrest =>
      have hlt := skipString_length_lt hrest
      simp only [List.length_cons]
      omega
  | literal =>
      simp only [List.length_cons, List.length_drop]
      omega
  | @comment t =>
      have hle := skipComment_length_le t
      simp only [List.length_cons]
      omega
  | opening =>
      simp only [List.length_cons]
      omega
  | closing hopen hclose hdepth =>
      simp only [List.length_cons]
      omega
  | plain =>
      simp only [List.length_cons]
      omega

/-- The loop: what is left behind the delimiter, if it is found. -/
def run (close : Char) (k : Balancer) : Option Text :=
  match _h : k.turn close with
  | .goesOn m => run close m
  | .found behind => some behind
  | .failed => none
termination_by k.rest.length
decreasing_by exact (counts_of_turn _h).1

/-- The loop comes from one state to another. -/
inductive Reaches (close : Char) (k : Balancer) : Balancer → Prop
  | refl : Reaches close k k
  | turn {m m' : Balancer} (head : Reaches close k m) (last : m.turn close = .goesOn m') :
      Reaches close k m'

/-- The counter **is never below zero**, and never more than the number of characters. -/
theorem Reaches.counts (h : Reaches close k m) (hk : 0 ≤ k.depth) :
    0 ≤ m.depth ∧ m.depth + m.rest.length ≤ k.depth + k.rest.length := by
  induction h with
  | refl => exact ⟨hk, Int.le_refl _⟩
  | turn _ last ih =>
      obtain ⟨-, hnonneg, hle⟩ := counts_of_turn last
      exact ⟨hnonneg ih.1, Int.le_trans hle ih.2⟩

end Balancer

/-! ### The loops and the scan -/

/-- What is left behind the balancing delimiter. -/
def balancedRest? (close : Char) (mode : Mode) (depth : Nat) (t : Text) : Option Text :=
  (balancedLength? close mode depth t).map fun n => t.drop n

section Rest

variable {close c : Char} {mode : Mode}

theorem map_drop_cons (close c : Char) (mode : Mode) (depth : Nat) (t : Text) :
    ((balancedLength? close mode depth t).map (· + 1)).map (fun n => (c :: t).drop n)
      = balancedRest? close mode depth t := by
  rw [Option.map_map]
  rfl

theorem balancedRest?_opening (depth : Nat) (t : Text) (h : isOpening c) :
    balancedRest? close .code depth (c :: t) = balancedRest? close .code (depth + 1) t := by
  rw [balancedRest?, balancedLength?_opening depth t h, map_drop_cons]

theorem balancedRest?_closing_succ (depth : Nat) (t : Text) (h : isClosing c)
    (ho : isOpening c = false) :
    balancedRest? close .code (depth + 1) (c :: t) = balancedRest? close .code depth t := by
  rw [balancedRest?, balancedLength?_closing_succ depth t h ho, map_drop_cons]

theorem balancedRest?_closing_zero (t : Text) (h : isClosing c) (ho : isOpening c = false) :
    balancedRest? close .code 0 (c :: t) = if c = close then some t else none := by
  rw [balancedRest?, balancedLength?.eq_def]
  simp only [h, ho, Bool.false_eq_true, and_false, if_false, and_self, if_true]
  split <;> rfl

theorem balancedRest?_other (depth : Nat) (t : Text)
    (h : mode = .code → isOpening c = false ∧ isClosing c = false) :
    balancedRest? close mode depth (c :: t) = balancedRest? close (mode.next c) depth t := by
  rw [balancedRest?, balancedLength?_other depth t h, map_drop_cons]

/-- After a backslash the scan skips a character. -/
theorem balancedRest?_literal (close : Char) (depth : Nat) (t : Text) :
    balancedRest? close .literal depth t = balancedRest? close .code depth (t.drop 1) := by
  cases t with
  | nil => rfl
  | cons c t => exact balancedRest?_other depth t (by simp)

/-- In a string it does **what the loop for strings does**. -/
theorem balancedRest?_string (close : Char) (depth : Nat) (t : Text) :
    balancedRest? close .string depth t = (skipString t).bind (balancedRest? close .code depth) := by
  fun_induction skipString t with
  | case1 => rfl
  | case2 t => exact balancedRest?_other depth t (by simp)
  | case3 => rfl
  | case4 e t hne ih =>
      rw [← ih, balancedRest?_other depth _ (by simp)]
      exact balancedRest?_other depth t (by simp [Mode.next])
  | case5 c t hquote hslash ih =>
      rw [← ih, balancedRest?_other depth t (by simp)]
      simp [Mode.next, hquote, hslash]

/-- In a comment it does **what the loop for comments does**. -/
theorem balancedRest?_comment (close : Char) (depth : Nat) (t : Text) :
    balancedRest? close .comment depth t = balancedRest? close .code depth (skipComment t) := by
  fun_induction skipComment t with
  | case1 => rfl
  | case2 t => exact balancedRest?_other depth t (by simp)
  | case3 c t hbreak ih =>
      rw [← ih, balancedRest?_other depth t (by simp)]
      simp [Mode.next, hbreak]

end Rest

namespace Balancer

/-- The turn is what the scan does: it comes to a state from which the scan finds the same, or it
has found that. -/
def Turn.Follows (close : Char) (sought : Option Text) : Turn → Prop
  | .goesOn m => ∃ depth : Nat, m.depth = depth ∧ balancedRest? close .code depth m.rest = sought
  | .found behind => sought = some behind
  | .failed => sought = none

/-- **Once around the loop** is what the scan does. -/
theorem follows_turn (close : Char) (t : Text) (depth : Nat) :
    (turn close ⟨t, depth⟩).Follows close (balancedRest? close .code depth t) := by
  have hturns : Turns close depth t (turn close ⟨t, depth⟩) := turns_turn close ⟨t, depth⟩
  generalize turn close ⟨t, depth⟩ = turned at hturns ⊢
  -- a quote, a backslash and a semicolon are no delimiters
  have hmark (c : Char) (t : Text) (ho : isOpening c = false) (hc : isClosing c = false) :
      balancedRest? close .code depth (c :: t)
        = balancedRest? close (Mode.code.next c) depth t :=
    balancedRest?_other depth t fun _ => ⟨ho, hc⟩
  cases hturns with
  | ended => rfl
  | @string t rest hrest =>
      refine ⟨depth, rfl, ?_⟩
      rw [hmark '"' t rfl rfl]
      exact ((balancedRest?_string close depth t).trans (by rw [hrest]; rfl)).symm
  | @openString t hrest =>
      refine (hmark '"' t rfl rfl).trans ?_
      exact (balancedRest?_string close depth t).trans (by rw [hrest]; rfl)
  | @literal t =>
      refine ⟨depth, rfl, ?_⟩
      rw [hmark '\\' t rfl rfl]
      exact (balancedRest?_literal close depth t).symm
  | @comment t =>
      refine ⟨depth, rfl, ?_⟩
      rw [hmark ';' t rfl rfl]
      exact (balancedRest?_comment close depth t).symm
  | @opening c t hopen => exact ⟨depth + 1, rfl, (balancedRest?_opening depth t hopen).symm⟩
  | @closing c t hopen hclose hdepth =>
      obtain ⟨depth, rfl⟩ := Nat.exists_eq_succ_of_ne_zero (n := depth) (by omega)
      exact ⟨depth, by simp, (balancedRest?_closing_succ depth t hclose hopen).symm⟩
  | @found t hopen hclose hdepth =>
      obtain rfl : depth = 0 := by omega
      exact (balancedRest?_closing_zero t hclose hopen).trans (if_pos rfl)
  | @mismatched c t hopen hclose hdepth hne =>
      obtain rfl : depth = 0 := by omega
      exact (balancedRest?_closing_zero t hclose hopen).trans (if_neg hne)
  | @plain c t hopen hclose hnext =>
      refine ⟨depth, rfl, ?_⟩
      rw [hmark c t hopen hclose, hnext]

/-- The loops find **what the scan finds**. -/
theorem run_eq (close : Char) (k : Balancer) {depth : Nat} (h : k.depth = depth) :
    k.run close = balancedRest? close .code depth k.rest := by
  fun_induction run close k generalizing depth with
  | case1 k m hturn ih =>
      have hfollows := follows_turn close k.rest depth
      rw [← h, hturn] at hfollows
      obtain ⟨depth', hdepth, hsame⟩ := hfollows
      rw [ih hdepth, hsame]
  | case2 k behind hturn =>
      have hfollows := follows_turn close k.rest depth
      rw [← h, hturn] at hfollows
      exact hfollows.symm
  | case3 k hturn =>
      have hfollows := follows_turn close k.rest depth
      rw [← h, hturn] at hfollows
      exact hfollows.symm

end Balancer

/-! ### The scan between bytes -/

namespace Text

theorem fromByte?_eq_some {t rest : Text} {n : Nat} (h : fromByte? t n = some rest) :
    ∃ front, t = front ++ rest ∧ byteSize front = n := by
  fun_induction fromByte? t n with
  | case1 t =>
      obtain rfl := Option.some.inj h
      exact ⟨[], rfl, rfl⟩
  | case2 => cases h
  | case3 c t n hle ih =>
      obtain ⟨front, rfl, hsize⟩ := ih h
      refine ⟨c :: front, rfl, ?_⟩
      rw [byteSize_cons, hsize]
      omega
  | case4 => cases h

theorem upToByte?_eq_some {t front : Text} {n : Nat} (h : upToByte? t n = some front) :
    ∃ rest, t = front ++ rest ∧ byteSize front = n := by
  induction t generalizing n front with
  | nil =>
      cases n with
      | zero =>
          obtain rfl := Option.some.inj h
          exact ⟨[], rfl, rfl⟩
      | succ n => cases h
  | cons c t ih =>
      cases n with
      | zero =>
          obtain rfl := Option.some.inj h
          exact ⟨c :: t, rfl, rfl⟩
      | succ n =>
          rw [upToByte?] at h
          split at h
          · obtain ⟨front', hfront, rfl⟩ := Option.map_eq_some_iff.1 h
            obtain ⟨rest, rfl, hsize⟩ := ih hfront
            refine ⟨rest, rfl, ?_⟩
            rw [byteSize_cons, hsize]
            omega
          · cases h

/-- Of two fronts of a text the one with fewer bytes **is a front of the other**. -/
theorem exists_append_of_byteSize_le {s s' u u' : Text} (h : s ++ u = s' ++ u')
    (hle : byteSize s ≤ byteSize s') : ∃ v, s' = s ++ v ∧ u = v ++ u' := by
  rcases List.append_eq_append_iff.1 h with ⟨v, hs, hu⟩ | ⟨v, hs, hu⟩
  · exact ⟨v, hs, hu⟩
  · -- nothing stands between the two
    have hsize := le_byteSize v
    rw [hs, byteSize_append] at hle
    obtain rfl : v = [] := List.length_eq_zero_iff.1 (by omega)
    exact ⟨[], by simpa using hs.symm, by simpa using hu.symm⟩

end Text

/-- The scan of the text from one byte to another is decided **by the text before the second**. -/
structure DecidedBy (t : Text) (start stop : Nat) (close : Char) : Prop where
  /-- The scan passes something. -/
  start_lt : start < stop
  /-- It ends in the text. -/
  stop_le : stop ≤ byteSize t
  /-- It ends behind a closer, and nothing that follows matters. -/
  front : ∃ front, upToByte? t stop = some front ∧ [close] <:+ front
    ∧ ∀ s, balancedEnd? (front ++ s) start close = some stop
  /-- A text that is cut before its end is not enough. -/
  cut : ∀ byte front, start ≤ byte → byte < stop → upToByte? t byte = some front →
    (fromByte? front start).isSome ∧ balancedEnd? front start close = none

theorem decidedBy_of_balancedLength? {close : Char} {before rest : Text} {n : Nat}
    (h : balancedLength? close .code 0 rest = some n) :
    DecidedBy (before ++ rest) (byteSize before) (byteSize before + byteSize (rest.take n)) close := by
  obtain ⟨inside, behind, rfl, rfl⟩ := balancedLength?_splits h
  have htake : (inside ++ close :: behind).take (inside.length + 1) = inside ++ [close] := by
    rw [List.take_length_add_append, List.take_succ_cons, List.take_zero]
  have hstop : byteSize before + byteSize ((inside ++ close :: behind).take (inside.length + 1))
      = byteSize (before ++ (inside ++ [close])) := by rw [htake, byteSize_append before]
  have hsplit : before ++ (inside ++ close :: behind)
      = (before ++ (inside ++ [close])) ++ behind := by simp
  have hpos := close.utf8Size_pos
  refine ⟨?_, ?_, ⟨before ++ (inside ++ [close]), ?_, ?_, ?_⟩, ?_⟩
  · rw [htake, byteSize_append, byteSize_cons]
    omega
  · rw [hstop, hsplit, byteSize_append (before ++ (inside ++ [close]))]
    exact Nat.le_add_right _ _
  · rw [hstop, hsplit]
    exact upToByte?_append _ _
  · exact ⟨before ++ inside, List.append_assoc ..⟩
  · intro s
    have hagain := balancedLength?_take h s
    rw [htake] at hagain
    rw [List.append_assoc, balancedEnd?_append, hagain, Option.map_some, htake,
      List.take_left' (by simp)]
  · intro byte front hle hlt hfront
    obtain ⟨more, hmore, rfl⟩ := upToByte?_eq_some hfront
    obtain ⟨middle, rfl, hrest⟩ := exists_append_of_byteSize_le hmore hle
    refine ⟨by rw [fromByte?_append]; rfl, ?_⟩
    rw [balancedEnd?_append, Option.map_eq_none_iff]
    refine balancedLength?_eq_none (hrest ▸ h) ?_
    -- a longer front would have as many bytes as the scan passes
    refine Nat.lt_of_not_le fun hlong => ?_
    have hsize := byteOffset_le middle (inside.length + 1)
    rw [hrest, List.take_append_of_le_length hlong, byteSize_append] at hlt
    rw [byteOffset] at hsize
    omega

/-- **The scan for the balancing delimiter**, from any byte of a text where a character begins, or
its end, and for every closing delimiter.  It is what the loops do; their counter is never below
zero; and where the scan ends is decided by the text before that. -/
theorem balance_decided {t rest : Text} {start : Nat} (h : fromByte? t start = some rest)
    (closer : Closer) :
    balancedEnd? t start closer.char
        = (Balancer.run closer.char ⟨rest, 0⟩).map (fun behind => byteSize t - byteSize behind)
      ∧ (∀ m, Balancer.Reaches closer.char ⟨rest, 0⟩ m → 0 ≤ m.depth ∧ m.depth ≤ rest.length)
      ∧ ∀ stop, balancedEnd? t start closer.char = some stop →
          DecidedBy t start stop closer.char := by
  obtain ⟨before, rfl, rfl⟩ := fromByte?_eq_some h
  refine ⟨?_, ?_, ?_⟩
  · have hrun : Balancer.run closer.char ⟨rest, 0⟩ = balancedRest? closer.char .code 0 rest :=
      Balancer.run_eq closer.char ⟨rest, 0⟩ Int.ofNat_zero.symm
    rw [balancedEnd?_append, hrun, balancedRest?, Option.map_map]
    congr 1
    funext n
    have hsplit := byteSize_append (rest.take n) (rest.drop n)
    rw [List.take_append_drop] at hsplit
    rw [Function.comp_apply, byteSize_append]
    omega
  · intro m hreaches
    have hcounts := hreaches.counts (Int.le_refl 0)
    simp only at hcounts
    omega
  · intro stop hstop
    rw [balancedEnd?_append] at hstop
    obtain ⟨n, hn, rfl⟩ := Option.map_eq_some_iff.1 hstop
    exact decidedBy_of_balancedLength? hn

/-- Closers in a string and in a comment, behind a character of two bytes. -/
theorem balance_decided_hidden_closers :
    let t : Text := ['[', 'é', '"', ']', '"', ';', ']', '\n', ']', ' ']
    fromByte? t 1 = some (t.drop 1) ∧ balancedEnd? t 1 ']' = some 10 ∧ DecidedBy t 1 10 ']' := by
  intro t
  have hstart : fromByte? t 1 = some (t.drop 1) := by decide
  have hstop : balancedEnd? t 1 Closer.bracket.char = some 10 := by decide
  obtain ⟨-, -, hdecided⟩ := balance_decided hstart .bracket
  exact ⟨hstart, hstop, hdecided 10 hstop⟩

end EdnSpans
