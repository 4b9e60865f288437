/-
**A JSON value is determined by its text.**

The text of a JSON value tells where each part of it ends: a string ends at its quote, since the
quotes inside it are escaped; a number ends where the digits end, since what follows it is the end
of the text, a comma or a new line; and an item is followed by a comma exactly if there is another
one.  So no two values have the same text, and this needs no reader of JSON: it is enough to compare
two texts from left to right.

Main definitions:

* `EdnSpans.Json.Escaped` — the ways in which a character is written in a string;
* `EdnSpans.Json.mark` — what the text of a value begins with;
* `EdnSpans.Json.SelfDelimiting` — the text of a value shows where it ends.

Main results:

* `EdnSpans.Json.escape_append_inj`, `EdnSpans.Json.quoted_append_inj`,
  `EdnSpans.Json.decimalText_append_inj` — characters, strings and numbers are self-delimiting;
* `EdnSpans.Json.selfDelimiting` — **so are values**;
* `EdnSpans.Json.text_injective` — a value is determined by its text.
-/
import EdnSpans.Export.Json
import EdnSpans.Proofs.Token.Canonical

set_option relaxedAutoImplicit false
set_option autoImplicit false

namespace EdnSpans.Json

open Text

/-! ### Strings -/

/-- The ways in which a character is written in a string. -/
inductive Escaped : Char → Text → Prop
  /-- By a letter after a backslash. -/
  | letter {c letter : Char} (h : (c, letter) ∈ letterEscapes) : Escaped c ['\\', letter]
  /-- In the four digits of its code. -/
  | code {c : Char} (h : c.toNat < 0x20) : Escaped c (codeEscape c)
  /-- By itself. -/
  | plain {c : Char} (hquote : c ≠ '"') (hbackslash : c ≠ '\\') : Escaped c [c]

theorem escaped_escape (c : Char) : Escaped c (escape c) := by
  rw [escape]
  cases hlookup : letterEscapes.lookup c with
  | some letter =>
      obtain ⟨before, after, hsplit, -⟩ := List.lookup_eq_some_iff.1 hlookup
      exact .letter (by simp [hsplit])
  | none =>
      have hne (p : Char × Char) (hp : p ∈ letterEscapes) : c ≠ p.1 := by
        simpa using List.lookup_eq_none_iff.1 hlookup p hp
      dsimp only
      split
      · next hcode => exact .code hcode
      · exact .plain (hne ('"', '"') (by decide)) (hne ('\\', '\\') (by decide))

theorem digitChar_inj {m n : Nat} (hm : m < 16) (hn : n < 16) (h : m.digitChar = n.digitChar) :
    m = n := by
  have hall : ∀ m n : Fin 16, Nat.digitChar m = Nat.digitChar n → m = n := by decide
  exact Fin.mk.inj_iff.1 (hall ⟨m, hm⟩ ⟨n, hn⟩ h)

theorem codeEscape_append_inj {c d : Char} (hc : c.toNat < 0x20) (hd : d.toNat < 0x20)
    {s t : Text} (h : codeEscape c ++ s = codeEscape d ++ t) : c = d ∧ s = t := by
  simp only [codeEscape, List.cons_append, List.nil_append, List.cons.injEq, true_and] at h
  obtain ⟨hhigh, hlow, hrest⟩ := h
  have hhigh := digitChar_inj (by omega) (by omega) hhigh
  have hlow := digitChar_inj (by omega) (by omega) hlow
  exact ⟨Char.toNat_inj.1 (by omega), hrest⟩

/-- Characters in a string are self-delimiting. -/
theorem escape_append_inj {c d : Char} {s t : Text} (h : escape c ++ s = escape d ++ t) :
    c = d ∧ s = t := by
  -- no letter stands for two characters, and none is the one that announces a code
  have hletters : ∀ p ∈ letterEscapes, ∀ q ∈ letterEscapes, p.2 = q.2 → p.1 = q.1 := by decide
  have hannounce : ∀ p ∈ letterEscapes, p.2 ≠ 'u' := by decide
  have hc := escaped_escape c
  have hd := escaped_escape d
  generalize escape c = u at h hc
  generalize escape d = v at h hd
  cases hc with
  | letter hc =>
      cases hd with
      | letter hd =>
          simp only [List.cons_append, List.nil_append, List.cons.injEq, true_and] at h
          exact ⟨hletters _ hc _ hd h.1, h.2⟩
      | code hd =>
          simp only [codeEscape, List.cons_append, List.cons.injEq, true_and] at h
          exact absurd h.1 (hannounce _ hc)
      | plain hquote hbackslash =>
          simp only [List.cons_append, List.cons.injEq] at h
          exact absurd h.1.symm hbackslash
  | code hc =>
      cases hd with
      | letter hd =>
          simp only [codeEscape, List.cons_append, List.cons.injEq, true_and] at h
          exact absurd h.1.symm (hannounce _ hd)
      | code hd => exact codeEscape_append_inj hc hd h
      | plain hquote hbackslash =>
          simp only [codeEscape, List.cons_append, List.cons.injEq] at h
          exact absurd h.1.symm hbackslash
  | plain hquote hbackslash =>
      cases hd with
      | letter hd =>
          simp only [List.cons_append, List.cons.injEq] at h
          exact absurd h.1 hbackslash
      | code hd =>
          simp only [codeEscape, List.cons_append, List.cons.injEq] at h
          exact absurd h.1 hbackslash
      | plain hquote' hbackslash' =>
          simp only [List.cons_append, List.nil_append, List.cons.injEq] at h
          exact h

/-- No character in a string is written like the end of the string. -/
theorem escape_append_ne (c : Char) (s t : Text) : escape c ++ s ≠ '"' :: t := by
  intro h
  have hc := escaped_escape c
  generalize escape c = u at h hc
  cases hc with
  | letter hc => simp at h
  | code hc => simp [codeEscape] at h
  | plain hquote hbackslash =>
      simp only [List.cons_append, List.cons.injEq] at h
      exact hquote h.1

theorem flatMap_escape_append_inj {s s' t t' : Text}
    (h : s.flatMap escape ++ '"' :: t = s'.flatMap escape ++ '"' :: t') : s = s' ∧ t = t' := by
  induction s generalizing s' with
  | nil =>
      cases s' with
      | nil => exact ⟨rfl, (List.cons.inj h).2⟩
      | cons d s' =>
          rw [List.flatMap_cons, List.append_assoc] at h
          exact absurd h.symm (escape_append_ne d _ _)
  | cons c s ih =>
      cases s' with
      | nil =>
          rw [List.flatMap_cons, List.append_assoc] at h
          exact absurd h (escape_append_ne c _ _)
      | cons d s' =>
          rw [List.flatMap_cons, List.flatMap_cons, List.append_assoc, List.append_assoc] at h
          obtain ⟨hcd, hrest⟩ := escape_append_inj h
          obtain ⟨hs, ht⟩ := ih hrest
          exact ⟨by rw [hcd, hs], ht⟩

/-- Strings are self-delimiting. -/
theorem quoted_append_inj {s s' t t' : Text} (h : quoted s ++ t = quoted s' ++ t') :
    s = s' ∧ t = t' := by
  simp only [quoted, List.cons_append, List.append_assoc, List.nil_append, List.cons.injEq,
    true_and] at h
  exact flatMap_escape_append_inj h

/-! ### Numbers -/

theorem decimalText_inj {m n : Nat} (h : Radix.decimalText m = Radix.decimalText n) : m = n := by
  have hm := Radix.natural?_decimalText m
  rw [h, Radix.natural?_decimalText] at hm
  exact (Option.some.inj hm).symm

/-- Numbers are self-delimiting, in front of what cannot go on with a digit. -/
theorem decimalText_append_inj {m n : Nat} {s t : Text} (hs : Separates s) (ht : Separates t)
    (h : Radix.decimalText m ++ s = Radix.decimalText n ++ t) : m = n ∧ s = t := by
  have htake (k : Nat) {u : Text} (hu : Separates u) :
      (Radix.decimalText k ++ u).takeWhile Char.isDigit = Radix.decimalText k :=
    takeWhile_of_separates (fun _ => isSymbolic_of_isDigit)
      (fun _ => Radix.isDigit_of_mem_decimalText) hu
  have hdigits := congrArg (List.takeWhile Char.isDigit) h
  rw [htake m hs, htake n ht] at hdigits
  rw [hdigits] at h
  exact ⟨decimalText_inj hdigits, List.append_cancel_left h⟩

/-! ### Values -/

/-- Induction **over a value**, with the induction hypothesis for all items and members. -/
theorem induct {motive : Json → Prop} (null : motive .null) (bool : ∀ b, motive (.bool b))
    (number : ∀ n, motive (.number n)) (string : ∀ t, motive (.string t))
    (array : ∀ items, (∀ j ∈ items, motive j) → motive (.array items))
    (object : ∀ members : List (Text × Json), (∀ p ∈ members, motive p.2) →
      motive (.object members)) : ∀ j, motive j
  | .null => null
  | .bool b => bool b
  | .number n => number n
  | .string t => string t
  | .array items => array items (inItems items)
  | .object members => object members (inMembers members)
where
  inItems : ∀ items : List Json, ∀ j ∈ items, motive j
  | [], _, h => nomatch h
  | i :: items, j, h => by
      rcases List.mem_cons.1 h with h | h
      · exact h ▸ induct null bool number string array object i
      · exact inItems items j h
  inMembers : ∀ members : List (Text × Json), ∀ p ∈ members, motive p.2
  | [], _, h => nomatch h
  | (name, value) :: members, p, h => by
      rcases List.mem_cons.1 h with h | h
      · exact h ▸ induct null bool number string array object value
      · exact inMembers members p h

/-- One character for all that begin the same sort of value: digits begin numbers, and two letters
begin truth values. -/
def markOf (c : Char) : Char := if c.isDigit then '0' else if c = 'f' then 't' else c

/-- What the text of a value begins with. -/
def mark : Json → Char
  | .null => 'n'
  | .bool _ => 't'
  | .number _ => '0'
  | .string _ => '"'
  | .array _ => '['
  | .object _ => '{'

theorem mark_write (level : Nat) (rest : Text) (j : Json) :
    (write level rest j).head?.map markOf = some j.mark := by
  match j with
  | .null => rw [write]; rfl
  | .bool true => rw [write]; rfl
  | .bool false => rw [write]; rfl
  | .number n =>
      rw [write, mark]
      cases htext : Radix.decimalText n with
      | nil => exact absurd htext Nat.toDigits_ne_nil
      | cons c cs =>
          have hc : c.isDigit := Radix.isDigit_of_mem_decimalText (n := n) (by simp [htext])
          simp [markOf, hc]
  | .string t => rw [write, quoted]; rfl
  | .array [] => rw [write]; rfl
  | .array (item :: items) => rw [write]; rfl
  | .object [] => rw [write]; rfl
  | .object ((name, value) :: members) => rw [write]; rfl

theorem mark_eq_of_write_eq {level : Nat} {rest rest' : Text} {j j' : Json}
    (h : write level rest j = write level rest' j') : j.mark = j'.mark := by
  have hmark := mark_write level rest j
  rw [h, mark_write] at hmark
  exact (Option.some.inj hmark).symm

/-- The text of the value shows where it ends, in front of what cannot go on with a digit. -/
def SelfDelimiting (j : Json) : Prop :=
  ∀ {level : Nat} {rest rest' : Text} {j' : Json}, Separates rest → Separates rest' →
    write level rest j = write level rest' j' → j = j' ∧ rest = rest'

theorem separates_newLine (level : Nat) (t : Text) : Separates (newLine level ++ t) := by
  rintro c ⟨⟩
  decide

theorem separates_comma (t : Text) : Separates (',' :: t) := by
  rintro c ⟨⟩
  decide

theorem newLine_append_ne_comma (level : Nat) (s t : Text) : newLine level ++ s ≠ ',' :: t := by
  simp [newLine]

theorem separates_writeItems (level outer : Nat) (t : Text) (items : List Json) :
    Separates (writeItems level (newLine outer ++ t) items) := by
  cases items with
  | nil => exact separates_newLine outer t
  | cons item items =>
      rw [writeItems]
      exact separates_comma _

theorem separates_writeMembers (level outer : Nat) (t : Text) (members : List (Text × Json)) :
    Separates (writeMembers level (newLine outer ++ t) members) := by
  cases members with
  | nil => exact separates_newLine outer t
  | cons member members =>
      rw [writeMembers]
      exact separates_comma _

/-- The items of an array are self-delimiting, in front of a new line. -/
theorem writeItems_inj {items items' : List Json} (ih : ∀ j ∈ items, j.SelfDelimiting)
    {level outer : Nat} {t t' : Text}
    (h : writeItems level (newLine outer ++ t) items
      = writeItems level (newLine outer ++ t') items') : items = items' ∧ t = t' := by
  induction items generalizing items' with
  | nil =>
      cases items' with
      | nil => exact ⟨rfl, List.append_cancel_left h⟩
      | cons item' items' =>
          rw [writeItems, writeItems] at h
          exact absurd h (newLine_append_ne_comma _ _ _)
  | cons item items ihitems =>
      cases items' with
      | nil =>
          rw [writeItems, writeItems] at h
          exact absurd h.symm (newLine_append_ne_comma _ _ _)
      | cons item' items' =>
          rw [writeItems, writeItems] at h
          have hwrite := List.append_cancel_left (List.cons.inj h).2
          obtain ⟨hitem, hrest⟩ := ih item (List.mem_cons_self ..)
            (separates_writeItems _ _ _ _) (separates_writeItems _ _ _ _) hwrite
          obtain ⟨hitems, ht⟩ := ihitems (fun j hj => ih j (List.mem_cons_of_mem _ hj)) hrest
          exact ⟨by rw [hitem, hitems], ht⟩

/-- The members of an object are self-delimiting, in front of a new line. -/
theorem writeMembers_inj {members members' : List (Text × Json)}
    (ih : ∀ p ∈ members, p.2.SelfDelimiting) {level outer : Nat} {t t' : Text}
    (h : writeMembers level (newLine outer ++ t) members
      = writeMembers level (newLine outer ++ t') members') : members = members' ∧ t = t' := by
  induction members generalizing members' with
  | nil =>
      cases members' with
      | nil => exact ⟨rfl, List.append_cancel_left h⟩
      | cons member' members' =>
          rw [writeMembers, writeMembers] at h
          exact absurd h (newLine_append_ne_comma _ _ _)
  | cons member members ihmembers =>
      cases members' with
      | nil =>
          rw [writeMembers, writeMembers] at h
          exact absurd h.symm (newLine_append_ne_comma _ _ _)
      | cons member' members' =>
          obtain ⟨name, value⟩ := member
          obtain ⟨name', value'⟩ := member'
          rw [writeMembers, writeMembers] at h
          obtain ⟨hname, hvalue⟩ :=
            quoted_append_inj (List.append_cancel_left (List.cons.inj h).2)
          have hwrite := (List.cons.inj (List.cons.inj hvalue).2).2
          have hdelimit : value.SelfDelimiting := ih (name, value) (List.mem_cons_self ..)
          obtain ⟨hvalue, hrest⟩ :=
            hdelimit (separates_writeMembers _ _ _ _) (separates_writeMembers _ _ _ _) hwrite
          obtain ⟨hmembers, ht⟩ :=
            ihmembers (fun p hp => ih p (List.mem_cons_of_mem _ hp)) hrest
          exact ⟨by rw [hname, hvalue, hmembers], ht⟩

theorem selfDelimiting_array {items : List Json} (ih : ∀ j ∈ items, j.SelfDelimiting) :
    (Json.array items).SelfDelimiting := by
  intro level rest rest' j' _ _ h
  have hmark := mark_eq_of_write_eq h
  cases j' with
  | array items' =>
      cases items with
      | nil =>
          cases items' with
          | nil =>
              simp only [write, List.cons.injEq, true_and] at h
              exact ⟨rfl, h⟩
          | cons item' items' => simp [write, newLine] at h
      | cons item items =>
          cases items' with
          | nil => simp [write, newLine] at h
          | cons item' items' =>
              -- with a comma before the first item, all items are written alike
              have hitems : writeItems (level + 1) (newLine level ++ ']' :: rest) (item :: items)
                  = writeItems (level + 1) (newLine level ++ ']' :: rest') (item' :: items') := by
                rw [write, write] at h
                rw [writeItems, writeItems, (List.cons.inj h).2]
              obtain ⟨hitems, hrest⟩ := writeItems_inj ih hitems
              exact ⟨by rw [hitems], (List.cons.inj hrest).2⟩
  | _ => simp [mark] at hmark

theorem selfDelimiting_object {members : List (Text × Json)}
    (ih : ∀ p ∈ members, p.2.SelfDelimiting) : (Json.object members).SelfDelimiting := by
  intro level rest rest' j' _ _ h
  have hmark := mark_eq_of_write_eq h
  cases j' with
  | object members' =>
      cases members with
      | nil =>
          cases members' with
          | nil =>
              simp only [write, List.cons.injEq, true_and] at h
              exact ⟨rfl, h⟩
          | cons member' members' => simp [write, newLine] at h
      | cons member members =>
          cases members' with
          | nil => simp [write, newLine] at h
          | cons member' members' =>
              have hmembers :
                  writeMembers (level + 1) (newLine level ++ '}' :: rest) (member :: members)
                    = writeMembers (level + 1) (newLine level ++ '}' :: rest')
                        (member' :: members') := by
                rw [write, write] at h
                rw [writeMembers, writeMembers, (List.cons.inj h).2]
              obtain ⟨hmembers, hrest⟩ := writeMembers_inj ih hmembers
              exact ⟨by rw [hmembers], (List.cons.inj hrest).2⟩
  | _ => simp [mark] at hmark

/-- Values are **self-delimiting**: two texts that agree belong to the same value, and so does what
follows them. -/
theorem selfDelimiting (j : Json) : j.SelfDelimiting := by
  induction j using Json.induct with
  | array items ih => exact selfDelimiting_array ih
  | object members ih => exact selfDelimiting_object ih
  | null =>
      intro level rest rest' j' _ _ h
      have hmark := mark_eq_of_write_eq h
      cases j' with
      | null =>
          simp only [write, List.cons.injEq, true_and] at h
          exact ⟨rfl, h⟩
          | _ => simp [mark] at hmark
  | bool b =>
      intro level rest rest' j' _ _ h
      have hmark := mark_eq_of_write_eq h
      cases j' with
      | bool b' =>
          cases b with
          | false =>
              cases b' with
              | false =>
                  simp only [write, List.cons.injEq, true_and] at h
                  exact ⟨rfl, h⟩
              | true => simp [write] at h
          | true =>
              cases b' with
              | false => simp [write] at h
              | true =>
                  simp only [write, List.cons.injEq, true_and] at h
                  exact ⟨rfl, h⟩
      | _ => simp [mark] at hmark
  | number n =>
      intro level rest rest' j' hrest hrest' h
      have hmark := mark_eq_of_write_eq h
      cases j' with
      | number n' =>
          rw [write, write] at h
          obtain ⟨hn, hrest⟩ := decimalText_append_inj hrest hrest' h
          exact ⟨by rw [hn], hrest⟩
          | _ => simp [mark] at hmark
  | string t =>
      intro level rest rest' j' _ _ h
      have hmark := mark_eq_of_write_eq h
      cases j' with
      | string t' =>
          rw [write, write] at h
          obtain ⟨ht, hrest⟩ := quoted_append_inj h
          exact ⟨by rw [ht], hrest⟩
          | _ => simp [mark] at hmark

/-- A value is **determined by its text**. -/
theorem text_injective : Function.Injective text := by
  intro j j' h
  exact (selfDelimiting j separates_nil separates_nil h).1

end EdnSpans.Json
