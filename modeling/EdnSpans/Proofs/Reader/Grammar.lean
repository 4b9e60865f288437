/-
**The grammar of forms.**

What a form may be written as does not have to be read off a machine with a stack: it is a grammar
with one rule for the scalars and one for each kind of collection.  The reader accepts exactly the
texts whose tokens are derived from some list of forms, and since a list of tokens is derived from
one list of forms at most, what it builds is the only thing that it could build.

Both directions go through parses, which are derivations that still know where their lexemes stand.

Main definitions:

* `EdnSpans.Form.inTurn` — the entries of a map as the list of its children;
* `EdnSpans.Derives`, `EdnSpans.DerivesAll` — **the grammar**;
* `EdnSpans.Cursor.Lexes` — the lexemes that are met, one after another, up to the end of a text.

Main results:

* `EdnSpans.Parse.derives`, `EdnSpans.Parse.exists_of_derives` — parses are derivations;
* `EdnSpans.readForms_iff_derivesAll` — **the reader accepts exactly the grammar**, which is
  unambiguous.
-/
import EdnSpans.Proofs.Reader.Parse

set_option relaxedAutoImplicit false
set_option autoImplicit false

namespace EdnSpans

/-! ### Entries -/

/-- The entries of a map as its children: keys and values in turn, in the order of the entries. -/
def Form.inTurn (entries : List (Form × Form)) : List Form := entries.flatMap fun e => [e.1, e.2]

/-- An even number of forms is taken **two at a time**, as keys and their values. -/
theorem Form.exists_inTurn_of_even :
    ∀ items : List Form, items.length % 2 = 0 → ∃ entries, items = inTurn entries
  | [], _ => ⟨[], rfl⟩
  | [_], h => by simp at h
  | key :: value :: items, h => by
      have heven : items.length % 2 = 0 := by
        simp only [List.length_cons] at h
        omega
      obtain ⟨entries, rfl⟩ := exists_inTurn_of_even items heven
      exact ⟨(key, value) :: entries, rfl⟩

theorem Form.length_inTurn (entries : List (Form × Form)) :
    (inTurn entries).length = 2 * entries.length := by
  induction entries with
  | nil => rfl
  | cons e entries ih =>
      simp only [inTurn, List.flatMap_cons, List.length_append, List.length_cons,
        List.length_nil] at ih ⊢
      omega

/-! ### Rules -/

mutual

/-- The form is derived as the tokens. -/
inductive Derives : Form → List Token → Prop
  | scalar (s : Scalar) : Derives (.atom s none) [.scalar s]
  | list {items : List Form} {ts : List Token} : DerivesAll items ts →
      Derives (.node .list items none) (.opening .list :: (ts ++ [.closing .paren]))
  | vector {items : List Form} {ts : List Token} : DerivesAll items ts →
      Derives (.node .vector items none) (.opening .vector :: (ts ++ [.closing .bracket]))
  | set {items : List Form} {ts : List Token} : DerivesAll items ts →
      Derives (.node .set items none) (.opening .set :: (ts ++ [.closing .brace]))
  | map {entries : List (Form × Form)} {ts : List Token} : DerivesAll (Form.inTurn entries) ts →
      Derives (.node .map (Form.inTurn entries) none) (.opening .map :: (ts ++ [.closing .brace]))

/-- The forms are derived, one after another, as the tokens. -/
inductive DerivesAll : List Form → List Token → Prop
  | nil : DerivesAll [] []
  | cons {f : Form} {fs : List Form} {ts us : List Token} : Derives f ts → DerivesAll fs us →
      DerivesAll (f :: fs) (ts ++ us)

end

theorem derives_atom_iff {s : Scalar} {m : Option Span} {ts : List Token} :
    Derives (.atom s m) ts ↔ m = none ∧ ts = [.scalar s] := by
  constructor
  · rintro ⟨⟩
    exact ⟨rfl, rfl⟩
  · rintro ⟨rfl, rfl⟩
    exact .scalar s

/-- The four rules for collections **differ in the delimiters**, and in that the items of a map have
to be even in number. -/
theorem derives_node_iff {kind : Kind} {items : List Form} {m : Option Span} {ts : List Token} :
    Derives (.node kind items m) ts
      ↔ m = none ∧ (kind = .map → items.length % 2 = 0)
        ∧ ∃ us, DerivesAll items us ∧ ts = .opening kind :: (us ++ [.closing kind.closer]) := by
  constructor
  · intro h
    cases h with
    | list h => exact ⟨rfl, by simp, _, h, rfl⟩
    | vector h => exact ⟨rfl, by simp, _, h, rfl⟩
    | set h => exact ⟨rfl, by simp, _, h, rfl⟩
    | map h => exact ⟨rfl, fun _ => by rw [Form.length_inTurn]; omega, _, h, rfl⟩
  · rintro ⟨rfl, heven, us, h, rfl⟩
    cases kind with
    | vector => exact .vector h
    | list => exact .list h
    | set => exact .set h
    | map =>
        obtain ⟨entries, rfl⟩ := Form.exists_inTurn_of_even items (heven rfl)
        exact .map h

theorem derivesAll_nil_iff {ts : List Token} : DerivesAll [] ts ↔ ts = [] := by
  constructor
  · rintro ⟨⟩
    rfl
  · rintro rfl
    exact .nil

theorem derivesAll_cons_iff {f : Form} {fs : List Form} {ts : List Token} :
    DerivesAll (f :: fs) ts ↔ ∃ us vs, ts = us ++ vs ∧ Derives f us ∧ DerivesAll fs vs := by
  constructor
  · rintro ⟨⟩
    next hf hfs => exact ⟨_, _, rfl, hf, hfs⟩
  · rintro ⟨us, vs, rfl, hf, hfs⟩
    exact .cons hf hfs

/-! ### Parses are derivations -/

/-- The step from the items to their collection. -/
theorem Parse.derivesAll_of_forall {ps : List Parse}
    (h : ∀ p ∈ ps, Derives p.form (p.lexemes.map Lexeme.token)) :
    DerivesAll (ps.map form) ((ps.flatMap lexemes).map Lexeme.token) := by
  induction ps with
  | nil => exact .nil
  | cons p ps ih =>
      rw [List.map_cons, List.flatMap_cons, List.map_append]
      exact .cons (h p (List.mem_cons_self ..)) (ih fun q hq => h q (List.mem_cons_of_mem _ hq))

/-- The form of a parse **is derived as the tokens** of its lexemes. -/
theorem Parse.derives {p : Parse} (hp : p.Paired) :
    Derives p.form (p.lexemes.map Lexeme.token) := by
  induction p using Parse.induct with
  | leaf s e => exact .scalar s
  | branch kind o items c ih =>
      obtain ⟨heven, hitems⟩ := (paired_branch kind o c items).1 hp
      rw [form_branch, derives_node_iff]
      refine ⟨rfl, by simpa using heven, _,
        derivesAll_of_forall fun q hq => ih q hq (hitems q hq), ?_⟩
      simp [Extent.lexeme]

/-- The step from the items to their collection: lexemes are divided as their tokens are. -/
theorem Parse.exists_of_derivesAll {fs : List Form}
    (ih : ∀ f ∈ fs, ∀ {ls : List Lexeme}, Derives f (ls.map Lexeme.token) →
      ∃ p : Parse, p.Paired ∧ p.form = f ∧ p.lexemes = ls)
    {ls : List Lexeme} (h : DerivesAll fs (ls.map Lexeme.token)) :
    ∃ ps : List Parse, (∀ p ∈ ps, p.Paired) ∧ ps.map form = fs ∧ ps.flatMap lexemes = ls := by
  induction fs generalizing ls with
  | nil =>
      have hls : ls = [] := by simpa using derivesAll_nil_iff.1 h
      exact ⟨[], by simp, rfl, hls.symm⟩
  | cons f fs ihfs =>
      obtain ⟨us, vs, hsplit, hf, hfs⟩ := derivesAll_cons_iff.1 h
      obtain ⟨xs, ys, rfl, rfl, rfl⟩ := List.map_eq_append_iff.1 hsplit
      obtain ⟨p, hp, hform, hlexemes⟩ := ih f (List.mem_cons_self ..) hf
      obtain ⟨ps, hps, hforms, hmore⟩ := ihfs (fun g hg => ih g (List.mem_cons_of_mem _ hg)) hfs
      refine ⟨p :: ps, ?_, ?_, ?_⟩
      · simpa using ⟨hp, hps⟩
      · rw [List.map_cons, hform, hforms]
      · rw [List.flatMap_cons, hlexemes, hmore]

/-- Lexemes whose tokens are derived from a form **have a parse** with that form. -/
theorem Parse.exists_of_derives {f : Form} {ls : List Lexeme}
    (h : Derives f (ls.map Lexeme.token)) :
    ∃ p : Parse, p.Paired ∧ p.form = f ∧ p.lexemes = ls := by
  induction f using Form.induct generalizing ls with
  | atom s m =>
      obtain ⟨rfl, htokens⟩ := derives_atom_iff.1 h
      obtain ⟨⟨token, start, stop⟩, rfl, rfl⟩ := List.map_eq_singleton_iff.1 htokens
      exact ⟨.leaf s ⟨start, stop⟩, trivial, rfl, rfl⟩
  | node kind items m ih =>
      obtain ⟨rfl, heven, us, hitems, htokens⟩ := derives_node_iff.1 h
      -- the first lexeme opens the collection and the last one closes it
      obtain ⟨⟨token, start, stop⟩, more, rfl, rfl, hmore⟩ := List.map_eq_cons_iff.1 htokens
      obtain ⟨xs, ys, rfl, rfl, hlast⟩ := List.map_eq_append_iff.1 hmore
      obtain ⟨⟨token, start', stop'⟩, rfl, rfl⟩ := List.map_eq_singleton_iff.1 hlast
      obtain ⟨ps, hps, rfl, rfl⟩ := exists_of_derivesAll ih hitems
      refine ⟨.branch kind ⟨start, stop⟩ ps ⟨start', stop'⟩, ?_, ?_, ?_⟩
      · exact (paired_branch ..).2 ⟨by simpa using heven, hps⟩
      · exact form_branch ..
      · exact lexemes_branch ..

/-- A list of tokens is derived from **at most one** list of forms. -/
theorem DerivesAll.unique {fs gs : List Form} {ts : List Token} (hf : DerivesAll fs ts)
    (hg : DerivesAll gs ts) : fs = gs := by
  -- any positions will do to make lexemes of the tokens
  let lexeme (token : Token) : Lexeme := ⟨token, default, default⟩
  have hts : (ts.map lexeme).map Lexeme.token = ts := by
    rw [List.map_map]
    exact List.map_id ts
  rw [← hts] at hf hg
  obtain ⟨ps, -, rfl, hps⟩ := Parse.exists_of_derivesAll (fun _ _ => Parse.exists_of_derives) hf
  obtain ⟨qs, -, rfl, hqs⟩ := Parse.exists_of_derivesAll (fun _ _ => Parse.exists_of_derives) hg
  rw [Parse.flatMap_lexemes_inj (hps.trans hqs.symm)]

/-! ### The reader accepts the grammar -/

/-- From the cursor, one step after another leads over the lexemes to the end of the text, and
nothing is rejected on the way. -/
inductive Cursor.Lexes : Cursor → List Lexeme → Prop
  | finished {k m : Cursor} : k.next = .finished m → Lexes k []
  | lexeme {k m : Cursor} {l : Lexeme} {ls : List Lexeme} : k.next = .lexeme l m → Lexes m ls →
      Lexes k (l :: ls)

theorem Cursor.lexes_iff {k : Cursor} {ls : List Lexeme} :
    k.Lexes ls ↔ LexemeStream.ofEvents k.events.1 = ⟨ls, none⟩ := by
  rw [ofEvents_eq_iff]
  constructor
  · intro h
    induction h with
    | @finished k m hnext => exact ⟨k, .nil k, by simp [Ended, hnext, Step.goesOn]⟩
    | @lexeme k m l ls hnext _ ih =>
        obtain ⟨k', hrun, hended⟩ := ih
        exact ⟨k', run_cons_iff.2 ⟨m, hnext, hrun⟩, hended⟩
  · rintro ⟨k', hrun, hended⟩
    induction ls generalizing k with
    | nil =>
        cases hrun
        cases hnext : k'.next with
        | finished m => exact .finished hnext
        | lexeme l m => simp [Ended, hnext, Step.goesOn] at hended
        | rejected r m => simp [Ended, hnext, Step.goesOn] at hended
    | cons l ls ih =>
        obtain ⟨m, hnext, hrun⟩ := run_cons_iff.1 hrun
        exact .lexeme hnext (ih hrun)

/-- The form that was read, without the span that it may carry at its root. -/
def TopForm.tree (top : TopForm) : Form := top.form.setSpan none

theorem Parse.tree_top (t : Text) (p : Parse) : (p.top t).tree = p.form := by
  simp only [TopForm.tree, top, Form.attach]
  split
  · cases p <;> rfl
  · cases p <;> rfl

/-- **The reader accepts exactly its grammar**: a text has certain forms if and only if it can be
read to its end as lexemes, and their tokens are derived from these forms.  And it builds the only
forms that it could build: **the grammar is unambiguous**. -/
theorem readForms_iff_derivesAll :
    (∀ (t : Text) (firstLine : Nat) (fs : List Form),
      (∃ tops, readForms t firstLine = .ok tops ∧ tops.map TopForm.tree = fs)
        ↔ ∃ ls, (Cursor.ofText t firstLine).Lexes ls ∧ DerivesAll fs (ls.map Lexeme.token))
      ∧ ∀ (ts : List Token) (fs gs : List Form), DerivesAll fs ts → DerivesAll gs ts → fs = gs := by
  refine ⟨fun t firstLine fs => ?_, fun _ _ _ hf hg => hf.unique hg⟩
  constructor
  · rintro ⟨tops, hread, rfl⟩
    obtain ⟨ps, hps, rfl⟩ := readForms_eq_ok_iff.1 hread
    refine ⟨ps.flatMap Parse.lexemes, Cursor.lexes_iff.2 hps.stream, ?_⟩
    have hforms : (ps.map (Parse.top t)).map TopForm.tree = ps.map Parse.form := by
      rw [List.map_map]
      exact List.map_congr_left fun p _ => p.tree_top t
    rw [hforms]
    exact Parse.derivesAll_of_forall fun p hp => Parse.derives (hps.paired p hp)
  · rintro ⟨ls, hlexes, hderives⟩
    obtain ⟨ps, hps, rfl, rfl⟩ :=
      Parse.exists_of_derivesAll (fun _ _ => Parse.exists_of_derives) hderives
    refine ⟨ps.map (Parse.top t),
      readForms_eq_ok_iff.2 ⟨ps, ⟨Cursor.lexes_iff.1 hlexes, hps⟩, rfl⟩, ?_⟩
    rw [List.map_map]
    exact List.map_congr_left fun p _ => p.tree_top t

/-- A map with a vector as a value, and directly behind it an empty set with the same closer. -/
theorem readForms_iff_derivesAll_map_before_set :
    let t : Text := ['{', 'a', '[', '1', ']', '}', '#', '{', '}']
    let ts : List Token := [.opening .map, .scalar (.symbol ['a']), .opening .vector,
      .scalar (.integer 1), .closing .bracket, .closing .brace, .opening .set, .closing .brace]
    let fs : List Form := [.node .map [.atom (.symbol ['a']) none,
      .node .vector [.atom (.integer 1) none] none] none, .node .set [] none]
    DerivesAll fs ts ∧ (∃ tops, readForms t 1 = .ok tops ∧ tops.map TopForm.tree = fs)
      ∧ ∀ gs, DerivesAll gs ts → fs = gs := by
  intro t ts fs
  have hmap : Derives (.node .map (Form.inTurn [(.atom (.symbol ['a']) none,
      .node .vector [.atom (.integer 1) none] none)]) none) _ :=
    .map (.cons (.scalar _) (.cons (.vector (.cons (.scalar _) .nil)) .nil))
  have hderives : DerivesAll fs ts := .cons hmap (.cons (.set .nil) .nil)
  have hlexes : (Cursor.ofText t 1).Lexes (LexemeStream.ofText t 1).lexemes :=
    Cursor.lexes_iff.2 (by decide +kernel)
  have htokens : (LexemeStream.ofText t 1).lexemes.map Lexeme.token = ts := by decide +kernel
  refine ⟨hderives, ?_, fun gs hgs => readForms_iff_derivesAll.2 ts fs gs hderives hgs⟩
  exact (readForms_iff_derivesAll.1 t 1 fs).2 ⟨_, hlexes, htokens ▸ hderives⟩

end EdnSpans
