/-
**Locating a form by bytes.**

A text in memory is a row of bytes, and whoever searches it gets bytes as an answer: the text of a
scalar or a delimiter is sought among the bytes, the text is cut at the bytes that were found, and
only at the end the characters before and inside the match are counted.  A cut inside a character is
a failure, and no match could come of it.

Such a cut never happens, in whatever text and whatever is sought in it.  All bytes that turn up are
those at which characters begin, so every cut is one between characters, and the match that comes of
it is the one that is found character by character.

Main definitions:

* `EdnSpans.Kind.shadowing?` — what must not stand before the opener of a kind, **read off the openers
  of all kinds**;
* `EdnSpans.openerByte?`, `EdnSpans.closerByte?` — the byte at which a collection begins, and the one
  behind its end;
* `EdnSpans.Match.ofBytes?` — the match between two bytes;
* `EdnSpans.Form.locateByBytes?` — **the match of a form, sought among the bytes**.

Main results:

* `EdnSpans.openerByte?_eq`, `EdnSpans.closerByte?_eq` — the bytes are those at which characters begin;
* `EdnSpans.Match.ofBytes?_eq` — what is cut out between them;
* `EdnSpans.Form.locateByBytes?_eq` — **no cut fails, and the match is the same**.
-/
import EdnSpans.Proofs.Locate.Match
import EdnSpans.Proofs.Reader.Lookahead
import EdnSpans.Proofs.Text.Utf8

set_option relaxedAutoImplicit false
set_option autoImplicit false

namespace EdnSpans

open Text

/-! ### Cuts -/

namespace Text

variable (t : Text) (n : Nat)

theorem fromByte?_byteOffset : fromByte? t (byteOffset t n) = some (t.drop n) := by
  have hcut := fromByte?_append (t.take n) (t.drop n)
  rwa [List.take_append_drop] at hcut

theorem upToByte?_byteOffset : upToByte? t (byteOffset t n) = some (t.take n) := by
  have hcut := upToByte?_append (t.take n) (t.drop n)
  rwa [List.take_append_drop] at hcut

/-- A cut at two bytes at which characters begin is **a cut between characters**. -/
theorem byteSlice?_byteOffset {start stop : Nat} (h : start ≤ stop) :
    byteSlice? t (byteOffset t start) (byteOffset t stop) = some (slice t start stop) := by
  obtain ⟨d, rfl⟩ := Nat.exists_eq_add_of_le h
  rw [byteOffset_add, byteSlice?, if_pos (Nat.le_add_right ..), fromByte?_byteOffset,
    Option.bind_some, Nat.add_sub_cancel_left, upToByte?_byteOffset, slice, Nat.add_sub_cancel_left]

end Text

/-! ### Where a collection begins -/

/-- The kinds of collections. -/
def Kind.all : List Kind := [.vector, .list, .set, .map]

/-- The texts that, standing directly before the opener of a kind, make it the tail of a longer one:
what is left of each longer opener when its tail is cut off. -/
def Kind.shadowing? (kind : Kind) : Option (List Text) :=
  (Kind.all.filter fun k =>
      byteSize kind.opener < byteSize k.opener && kind.opener.isSuffixOf k.opener).mapM fun k =>
    upToByte? k.opener (byteSize k.opener - byteSize kind.opener)

/-- Only the opener of a map is the tail of another one, **and one character is left of that**. -/
theorem Kind.shadowing?_eq (kind : Kind) :
    kind.shadowing? = some (kind.shadowedBy.toList.map fun c => [c]) := by
  cases kind <;> decide

/-- The byte at which the first opener of a kind begins that is not the tail of a longer one. -/
def openerByte? (kind : Kind) (t : Text) : Option (Option Nat) := do
  let shadows ← kind.shadowing?
  (byteMatches kind.opener t).findM? fun n => do
    let before ← upToByte? t n
    pure (!shadows.any fun shadow => shadow.isSuffixOf before)

/-! ### Where a collection ends -/

/-- The byte behind the closing delimiter that balances an opening one, if the text is scanned from
the given byte on, where `rest` is what is left of it. -/
def balanceByte? (t close : Text) (mode : Mode) (depth byte : Nat) :
    Text → Option (Option Nat)
  | [] => some none
  | c :: rest =>
      if mode = .code ∧ isOpening c then
        balanceByte? t close .code (depth + 1) (byte + c.utf8Size) rest
      else if mode = .code ∧ isClosing c then
        match depth with
        | 0 => (fromByte? t byte).map fun here =>
            if close.isPrefixOf here then some (byte + byteSize close) else none
        | depth + 1 => balanceByte? t close .code depth (byte + c.utf8Size) rest
      else balanceByte? t close (mode.next c) depth (byte + c.utf8Size) rest

/-- The byte behind a collection of a kind whose opener ends at the given byte. -/
def closerByte? (strategy : Strategy) (kind : Kind) (t : Text) (body : Nat) :
    Option (Option Nat) := do
  let close := [kind.closer.char]
  let rest ← fromByte? t body
  match strategy with
  | .first => pure ((byteMatches close rest).head?.map fun n => body + n + byteSize close)
  | .sequential => balanceByte? t close .code 0 body rest

/-! ### Matches -/

/-- The match between two bytes of a text, with its offsets in characters. -/
def Match.ofBytes? (t : Text) (start stop : Nat) : Option Match := do
  let text ← byteSlice? t start stop
  let before ← upToByte? t start
  pure ⟨text, before.length, before.length + text.length⟩

/-- The match of a form, **sought among the bytes** of a text; there is none at all if the text would
have to be cut inside a character. -/
def Form.locateByBytes? (strategy : Strategy) (t : Text) : Form → Option (Option Match)
  | .atom s _ =>
      match (byteMatches s.text t).head? with
      | none => some none
      | some start => (Match.ofBytes? t start (start + byteSize s.text)).map some
  | .node kind _ _ => do
      match ← openerByte? kind t with
      | none => pure none
      | some start =>
          match ← closerByte? strategy kind t (start + byteSize kind.opener) with
          | none => pure none
          | some stop => (Match.ofBytes? t start stop).map some

/-! ### No cut fails -/

/-- If the test never fails, it does not matter that it could. -/
theorem findM?_eq_find? {test : Nat → Option Bool} {passes : Nat → Bool} {places : List Nat}
    (h : ∀ n ∈ places, test n = some (passes n)) :
    places.findM? test = some (places.find? passes) := by
  induction places with
  | nil => rfl
  | cons n places ih =>
      have hn := h n (List.mem_cons_self ..)
      have htail := ih fun m hm => h m (List.mem_cons_of_mem _ hm)
      rw [List.findM?, List.find?, hn]
      cases hpasses : passes n with
      | true => rfl
      | false => exact htail

/-- The opener of a kind is one that counts, unless the character stands before it that makes it the
tail of a longer one. -/
theorem Kind.opensAt_none_iff {kind : Kind} {t : Text} {n : Nat} :
    kind.OpensAt none t n
      ↔ OccursAt kind.opener t n ∧ ∀ c, kind.shadowedBy = some c → ¬[c] <:+ t.take n := by
  have hlast (c : Char) (s : Text) : [c] <:+ s ↔ s.getLast? = some c := by
    rw [List.getLast?_eq_some_iff]
    constructor
    · rintro ⟨front, rfl⟩
      exact ⟨front, rfl⟩
    · rintro ⟨front, rfl⟩
      exact ⟨front, rfl⟩
  rw [OpensAt, Option.toList_none, List.nil_append]
  refine and_congr_right fun _ => ?_
  cases kind.shadowedBy with
  | none => simp
  | some c => simp [hlast]

theorem openerByte?_eq (kind : Kind) (t : Text) :
    openerByte? kind t = some ((openerIndex? kind none t).map (byteOffset t)) := by
  -- whether an opener counts is seen in what stands before it
  let counts (before : Text) : Bool :=
    !(kind.shadowedBy.toList.map fun c => [c]).any fun shadow => shadow.isSuffixOf before
  have hcounts {k : Nat} (hoccurs : OccursAt kind.opener t k) :
      counts (t.take k) = true ↔ kind.OpensAt none t k := by
    rw [Kind.opensAt_none_iff, and_iff_right hoccurs]
    cases hshadow : kind.shadowedBy with
    | none => simp [counts, hshadow]
    | some c => simp [counts, hshadow, ← List.isSuffixOf_iff_suffix]
  have hcut (k : Nat) : ((upToByte? t (byteOffset t k)).map counts).getD false = counts (t.take k) := by
    rw [upToByte?_byteOffset, Option.map_some, Option.getD_some]
  have htest : ∀ n ∈ byteMatches kind.opener t,
      (upToByte? t n).bind (fun before => some (counts before))
        = some (((upToByte? t n).map counts).getD false) := by
    intro n hn
    obtain ⟨k, -, rfl⟩ := (occursAtByte_iff kind.opener_ne_nil).1 (mem_byteMatches.1 hn)
    rw [hcut, upToByte?_byteOffset, Option.bind_some]
  have hfind : openerByte? kind t
      = some ((byteMatches kind.opener t).find? fun n => ((upToByte? t n).map counts).getD false) := by
    rw [openerByte?, Kind.shadowing?_eq]
    exact findM?_eq_find? htest
  rw [hfind]
  congr 1
  cases hindex : openerIndex? kind none t with
  | some k =>
      have hopens := opensAt_openerIndex? hindex
      refine find?_byteMatches kind.opener_ne_nil hopens.1 ?_ ?_
      · rw [hcut]
        exact (hcounts hopens.1).2 hopens
      · intro j hj hoccurs
        rw [hcut, Bool.eq_false_iff, Ne, hcounts hoccurs]
        intro hopens
        obtain ⟨m, hm, hle⟩ := openerIndex?_le hopens
        obtain rfl : m = k := Option.some.inj (hm.symm.trans hindex)
        exact absurd hj (Nat.not_lt_of_le hle)
  | none =>
      refine find?_byteMatches_eq_none kind.opener_ne_nil ?_
      intro j hoccurs
      rw [hcut, Bool.eq_false_iff, Ne, hcounts hoccurs]
      intro hopens
      obtain ⟨m, hm, -⟩ := openerIndex?_le hopens
      rw [hindex] at hm
      cases hm

/-- The scan by bytes is **always at the byte at which the next character begins**. -/
theorem balanceByte?_eq (close : Char) (before rest : Text) (mode : Mode) (depth : Nat) :
    balanceByte? (before ++ rest) [close] mode depth (byteSize before) rest
      = some ((balancedLength? close mode depth rest).map fun n =>
          byteSize before + byteOffset rest n) := by
  induction rest generalizing before mode depth with
  | nil => rfl
  | cons c rest ih =>
      -- the next character is passed over, and the scan goes on behind it
      have hnext (mode' : Mode) (depth' : Nat) :
          balanceByte? (before ++ c :: rest) [close] mode' depth' (byteSize before + c.utf8Size) rest
            = some (((balancedLength? close mode' depth' rest).map (· + 1)).map fun n =>
                byteSize before + byteOffset (c :: rest) n) := by
        have hstep := ih (before ++ [c]) mode' depth'
        rw [List.append_assoc, List.singleton_append, byteSize_append, byteSize_cons, byteSize_nil,
          Nat.add_zero] at hstep
        rw [hstep, Option.map_map]
        simp only [Function.comp_def, byteOffset_cons_succ, Nat.add_assoc]
      unfold balanceByte? balancedLength?
      split
      · exact hnext .code (depth + 1)
      · split
        · cases depth with
          | zero =>
              rw [fromByte?_append]
              by_cases hc : c = close
              · subst hc
                simp [byteOffset]
              · have hne : close ≠ c := fun h => hc h.symm
                simp [hc, hne]
          | succ depth => exact hnext .code depth
        · exact hnext (mode.next c) depth

theorem closerByte?_eq (strategy : Strategy) (kind : Kind) (t : Text) (body : Nat) :
    closerByte? strategy kind t (byteOffset t body)
      = some ((closerLength? strategy kind (t.drop body)).map fun n => byteOffset t (body + n)) := by
  rw [closerByte?, fromByte?_byteOffset]
  cases strategy with
  | first =>
      have hclose {n : Nat} (hn : indexOf? [kind.closer.char] (t.drop body) = some n) :
          byteOffset t body + byteOffset (t.drop body) n + byteSize [kind.closer.char]
            = byteOffset t (body + (n + 1)) := by
        rw [byteOffset_add, Nat.add_assoc, ← byteOffset_of_occursAt (occursAt_indexOf? hn)]
        rfl
      simp only [Option.bind_eq_bind, Option.bind_some, Option.pure_def, head?_byteMatches,
        closerLength?, Option.map_map]
      congr 1
      refine Option.map_congr ?_
      intro n hn
      exact hclose hn
  | sequential =>
      have hscan := balanceByte?_eq kind.closer.char (t.take body) (t.drop body) .code 0
      rw [List.take_append_drop] at hscan
      simp only [byteOffset_add, closerLength?]
      exact hscan

theorem Match.ofBytes?_eq {t : Text} {start stop : Nat} (hle : start ≤ stop)
    (hstop : stop ≤ t.length) :
    Match.ofBytes? t (byteOffset t start) (byteOffset t stop) = some (.between t start stop) := by
  have hbefore : (t.take start).length = start := by
    rw [List.length_take]
    omega
  have hlength : start + (slice t start stop).length = stop := by
    rw [length_slice_of_le hstop]
    omega
  rw [ofBytes?, byteSlice?_byteOffset t hle, upToByte?_byteOffset]
  simp only [Option.bind_eq_bind, Option.bind_some, Option.pure_def, hbefore, hlength, between]

/-- **No cut fails, and the match is the one that is found character by character.** -/
theorem Form.locateByBytes?_eq (strategy : Strategy) (f : Form) (t : Text) :
    f.locateByBytes? strategy t = some (f.locate strategy t) := by
  cases f with
  | atom s m =>
      rw [locateByBytes?, locate, head?_byteMatches]
      cases hindex : indexOf? s.text t with
      | none => rfl
      | some start =>
          have hoccurs := occursAt_indexOf? hindex
          simp only [Option.map_some, ← byteOffset_of_occursAt hoccurs]
          rw [Match.ofBytes?_eq (Nat.le_add_right ..) hoccurs.add_length_le, Option.map_some]
  | node kind cs m =>
      rw [locateByBytes?, locate, openerByte?_eq]
      cases hindex : openerIndex? kind none t with
      | none => rfl
      | some start =>
          have hoccurs := (opensAt_openerIndex? hindex).1
          simp only [Option.map_some, Option.bind_eq_bind, Option.bind_some,
            ← byteOffset_of_occursAt hoccurs, closerByte?_eq]
          cases hlength : closerLength? strategy kind (t.drop (start + kind.opener.length)) with
          | none => rfl
          | some n =>
              have hbounds := closerLength?_bounds hlength
              rw [List.length_drop] at hbounds
              simp only [Option.map_some]
              rw [Match.ofBytes?_eq (by omega) (by omega), Option.map_some]

end EdnSpans
