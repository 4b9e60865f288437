/-
**Attribution as seen from the seed.**

A seed says where its text stands, and where it ends.  Neither has a part in the search: the spans
below the root are placed by the offset and the line at which the seed begins, and by its text.  So
two seeds with the same text may stand anywhere, one before or behind the other, and have ends that
do not fit their text.  Their attributions have spans at the same nodes, kept in the same places,
and these spans are the same when they are looked at from their own seed.

The ends of a seed are dealt with first.  To give every span the end that follows from its text
changes nothing below the root, because every span that is found has that end already; and a seed
with that end is one at the very beginning, moved to its place.

Main definitions:

* `EdnSpans.Span.reseed` — a span with the end that **follows from its text**;
* `EdnSpans.View`, `EdnSpans.Span.viewFrom` — a span as seen from the beginning of another.

Main results:

* `EdnSpans.Options.mirrors_reseed` — the end of a span has no influence on what is found in it;
* `EdnSpans.Form.reseed_of_trace` — every span below the root has the end that follows from its text;
* `EdnSpans.Form.attributeFrom_reseed` — **attribution is that from the very beginning, moved**;
* `EdnSpans.attributeFrom_translated` — seeds with the same text have **the same attribution, as seen
  from the seed**.
-/
import EdnSpans.Proofs.Attribution.Placement
import EdnSpans.Proofs.Attribution.Shift

set_option relaxedAutoImplicit false
set_option autoImplicit false

namespace EdnSpans

/-! ### The end of a span -/

namespace Span

/-- The span with the end that follows from its text. -/
def reseed (s : Span) : Span := seed s.source s.line s.start

/-- A span with that end is one at the very beginning, **moved to its place**. -/
theorem reseed_eq_shift (s : Span) : s.reseed = (seed s.source 0 0).shift s.line s.start := by
  simp only [reseed, seed, shift, Nat.zero_add, Nat.add_comm, Nat.add_zero]

end Span

/-- What is found in a window has the end that follows from its text. -/
theorem Window.reseed_of_find? {w : Window} {strategy : Strategy} {f : Form} {found : Found}
    (h : w.find? strategy f = some found) : found.span.reseed = found.span := by
  rw [find?_eq_part] at h
  obtain ⟨m, -, rfl⟩ := Option.map_eq_some_iff.1 h
  rfl

/-- The end of a span has **no influence on what is found in it**. -/
theorem Options.mirrors_reseed (o : Options) :
    o.Mirrors o Span.reseed (fun _ => True) fun _ => True where
  strategy_eq := rfl
  unmatched_eq := rfl
  sustains := ⟨fun _ _ => True, fun _ _ => trivial, fun _ _ => trivial, fun _ _ _ => trivial⟩
  find?_map {f w} _ _ := by
    have hends : (w.find? o.strategy f).map (Found.map Span.reseed) = w.find? o.strategy f := by
      refine (Option.map_congr ?_).trans Option.map_id_apply
      intro found hfound
      rw [Found.map, Window.reseed_of_find? hfound]
      rfl
    rw [hends]
    rfl

namespace Form

/-- Every span below the root has **the end that follows from its text**. -/
theorem reseed_of_trace {o : Options} {f : Form} {seed : Span} {path : NodePath} (hpath : path ≠ [])
    {r : Span} (h : ((f.trace o (some seed) none).get? path).bind span = some r) :
    r.reseed = r := by
  have hsustains : o.Sustains (fun _ => True) fun _ r => r.reseed = r :=
    ⟨fun _ hfind => Window.reseed_of_find? hfind, fun _ _ => trivial, fun _ _ _ => trivial⟩
  obtain ⟨g, hget, hspan⟩ := Option.bind_eq_some_iff.1 h
  cases path with
  | nil => exact absurd rfl hpath
  | cons i path =>
      obtain ⟨c, hc, hget⟩ := Option.bind_eq_some_iff.1 hget
      exact trace_everywhere hsustains f _ none (fun _ _ _ _ => trivial) c
        (List.mem_of_getElem? hc) path g hget r hspan

/-! ### Attribution from the very beginning -/

theorem span_get?_mapSpans (φ : Span → Span) (f : Form) (path : NodePath) :
    ((f.mapSpans φ).get? path).bind span = ((f.get? path).bind span).map φ := by
  rw [get?_mapSpans]
  cases f.get? path with
  | none => rfl
  | some g => exact span_mapSpans φ g

/-- With the ends that follow from the texts, **the trace is that from the very beginning, moved to
where the seed stands**. -/
theorem trace_reseed (o : Options) (f : Form) (s : Span) :
    (f.trace o (some s) none).mapSpans Span.reseed
      = (f.trace o (some (.seed s.source 0 0)) none).mapSpans (Span.shift s.line s.start) := by
  have hends := trace_mirrors o.mirrors_reseed f (fun _ _ _ => trivial) (some s) none
    fun _ _ _ _ => trivial
  have hmoved := trace_mirrors (o.mirrors_shift o.firstLine s.line s.start) f (fun _ _ _ => trivial)
    (some (.seed s.source 0 0)) none fun _ _ _ _ => trivial
  rw [Option.map_some, Option.map_none, Span.reseed_eq_shift] at hends
  rw [Option.map_some, Option.map_none] at hmoved
  exact hends.symm.trans hmoved

theorem attributeFrom_reseed (o : Options) (f : Form) (s : Span) :
    (f.attributeFrom o s).mapSpans Span.reseed
      = (f.attributeFrom o (.seed s.source 0 0)).mapSpans (Span.shift s.line s.start) := by
  simp only [attributeFrom, Attributed.mapSpans, ← shed_mapSpans, ← sheddings_mapSpans,
    trace_reseed]

end Form

namespace Attributed

variable (φ : Span → Span) (a : Attributed)

theorem isSome_span_get?_mapSpans (path : NodePath) :
    ((a.mapSpans φ).form.get? path).map (·.span.isSome)
      = (a.form.get? path).map (·.span.isSome) := by
  rw [mapSpans, Form.get?_mapSpans, Option.map_map]
  simp only [Function.comp_def, Form.span_mapSpans, Option.isSome_map]

theorem paths_mapSpans : (a.mapSpans φ).detached.map Prod.fst = a.detached.map Prod.fst := by
  rw [mapSpans, List.map_map]
  rfl

end Attributed

/-! ### Spans as seen from the seed -/

/-- A span as seen from the beginning of another: its text, and the lines and offsets counted from
there. -/
structure View where
  /-- The text of the span. -/
  source : Text
  /-- The line on which it begins. -/
  line : Int
  /-- The line on which it ends. -/
  endLine : Int
  /-- The offset of its first character. -/
  start : Int
  /-- The offset of the character after its last one. -/
  stop : Int
  deriving DecidableEq, Repr

/-- The span as seen from the beginning of another. -/
def Span.viewFrom (origin r : Span) : View where
  source := r.source
  line := r.line - origin.line
  endLine := r.endLine - origin.line
  start := r.start - origin.start
  stop := r.stop - origin.start

/-- A span that is moved along with the other **looks the same**. -/
theorem Span.viewFrom_shift (origin r : Span) :
    origin.viewFrom (r.shift origin.line origin.start)
      = (seed origin.source 0 0).viewFrom r := by
  simp only [viewFrom, shift, seed, Int.natCast_add, View.mk.injEq, true_and]
  omega

namespace Form

variable (o : Options) (f : Form) (s : Span)

/-- Spans are **kept in the same places** as in the attribution from the very beginning. -/
theorem places_attributeFrom :
    (∀ path, ((f.attributeFrom o s).form.get? path).map (·.span.isSome)
        = ((f.attributeFrom o (.seed s.source 0 0)).form.get? path).map (·.span.isSome))
      ∧ (f.attributeFrom o s).detached.map Prod.fst
        = (f.attributeFrom o (.seed s.source 0 0)).detached.map Prod.fst := by
  constructor
  · intro path
    rw [← Attributed.isSome_span_get?_mapSpans Span.reseed, attributeFrom_reseed,
      Attributed.isSome_span_get?_mapSpans]
  · rw [← Attributed.paths_mapSpans Span.reseed, attributeFrom_reseed, Attributed.paths_mapSpans]

/-- Below the root every span is that of the attribution from the very beginning, **moved to where
the seed stands**. -/
theorem spanAt?_attributeFrom_shift {path : NodePath} (hpath : path ≠ []) :
    (f.attributeFrom o s).spanAt? path
      = ((f.attributeFrom o (.seed s.source 0 0)).spanAt? path).map (Span.shift s.line s.start) := by
  have hmoved : ((f.attributeFrom o s).spanAt? path).map Span.reseed
      = ((f.attributeFrom o (.seed s.source 0 0)).spanAt? path).map
          (Span.shift s.line s.start) := by
    simp only [spanAt?_attributeFrom, ← span_get?_mapSpans, trace_reseed]
  rw [← hmoved, spanAt?_attributeFrom]
  cases hspan : ((f.trace o (some s) none).get? path).bind span with
  | none => rfl
  | some r => rw [Option.map_some, reseed_of_trace hpath hspan]

end Form

/-- **Seeds with the same text have the same attribution, as seen from the seed**, wherever they
stand and whatever ends they have.  The root has the seed itself for its span; the same nodes carry
their spans, the spans beside the tree are those of the same nodes, and the spans of every node
below the root look the same from their own seed. -/
theorem attributeFrom_translated (o : Options) (f : Form) {s s' : Span}
    (h : s.source = s'.source) :
    let out := f.attributeFrom o s
    let out' := f.attributeFrom o s'
    (out.spanAt? [] = some s ∧ out'.spanAt? [] = some s')
      ∧ (∀ path, (out.form.get? path).map (·.span.isSome)
          = (out'.form.get? path).map (·.span.isSome))
      ∧ out.detached.map Prod.fst = out'.detached.map Prod.fst
      ∧ ∀ path, path ≠ [] →
          (out.spanAt? path).map s.viewFrom = (out'.spanAt? path).map s'.viewFrom := by
  intro out out'
  have hroot (seed : Span) : (f.attributeFrom o seed).spanAt? [] = some seed := by
    rw [Form.spanAt?_attributeFrom]
    exact Form.span_trace ..
  obtain ⟨hcarried, hapart⟩ := f.places_attributeFrom o s
  obtain ⟨hcarried', hapart'⟩ := f.places_attributeFrom o s'
  rw [← h] at hcarried' hapart'
  refine ⟨⟨hroot s, hroot s'⟩, fun path => (hcarried path).trans (hcarried' path).symm,
    hapart.trans hapart'.symm, ?_⟩
  intro path hpath
  have hview (seed : Span) : ((f.attributeFrom o seed).spanAt? path).map seed.viewFrom
      = ((f.attributeFrom o (.seed seed.source 0 0)).spanAt? path).map
          (Span.seed seed.source 0 0).viewFrom := by
    rw [Form.spanAt?_attributeFrom_shift o f seed hpath, Option.map_map]
    congr 1
    funext r
    exact seed.viewFrom_shift r
  rw [hview s, hview s', h]

/-- A number in a set in a vector, below a seed at the front of a text and below one that stands
further on and seems to end before it begins. -/
theorem attributeFrom_translated_nested_set :
    let s : Span := Span.seed "[a\n #\x7b7\x7d]".toList 1 0
    let s' : Span := ⟨s.source, 40, 2, 100, 9⟩
    let f : Form := .node .vector
      [.atom (.symbol ['a']) none, .node .set [.atom (.integer 7) none] none] none
    let out := f.attributeFrom ⟨.sequential, .stop, 1⟩ s
    let out' := f.attributeFrom ⟨.sequential, .stop, 1⟩ s'
    s.source = s'.source ∧ out.spanAt? [1, 0] = some ⟨['7'], 2, 2, 6, 7⟩
      ∧ (out'.spanAt? [1, 0]).map s'.viewFrom = some ⟨['7'], 1, 1, 6, 7⟩
      ∧ out'.detached.map Prod.fst = [[1, 0]] := by
  intro s s' f out out'
  have hsource : s.source = s'.source := rfl
  obtain ⟨-, -, hapart, hview⟩ := attributeFrom_translated ⟨.sequential, .stop, 1⟩ f hsource
  refine ⟨hsource, by decide +kernel, ?_, ?_⟩
  · rw [← hview [1, 0] (by simp)]
    decide +kernel
  · rw [← hapart]
    decide +kernel

end EdnSpans
