import Mathlib.Data.List.Induction
import MetricUnits.Schema
import MetricUnits.Proofs.Literal.Units

/-! The ways in which units come about, one after another. Only units that are read from structured data
can have the invalid measure for a divisor; the others have none then. Such a divisor stays as long as
nothing but the prefix is changed, and makes a unit differ from the one that it means. -/
namespace MetricUnits.MetricUnit
open Json

inductive Operation
  | invalid
  | make (scale : Prefix) (measure : Measure)
  | parse (literal : String)
  | decode (text : String)
  | withScale (p : Prefix)
  | withDivisor (m : Measure)
  | rescale (p : Prefix)

def ofText (text : String) : Except Fault MetricUnit := readWhole (reader nestingLimit) text

def apply (u : MetricUnit) : Operation → MetricUnit
  | .invalid => .invalid
  | .make scale measure => ofMeasure scale measure
  | .parse literal => MetricUnit.parse literal
  | .decode text =>
      match ofText text with
      | .ok made => made
      | .error _ => u
  | .withScale p => u.withScale p
  | .withDivisor m => u.withDivisor m
  | .rescale p => (u.rescale p).2

def run (operations : List Operation) : MetricUnit := operations.foldl apply .invalid

theorem runAppend (operations : List Operation) (o : Operation) :
    run (operations ++ [o]) = apply (run operations) o :=
  List.foldl_append

def Marked (u : MetricUnit) : Prop := u.divisor = some .invalid

inductive Operation.Marks : Operation → Prop
  | decode {text u} : ofText text = .ok u → u.Marked → Marks (.decode text)

inductive Operation.Keeps : Operation → Prop
  | withScale (p : Prefix) : Keeps (.withScale p)
  | decode {text e} : ofText text = .error e → Keeps (.decode text)

theorem parseUnmarked (literal : String) : ¬ (MetricUnit.parse literal).Marked := by
  intro marked
  rcases parseCanonical literal with invalid | canonical
  · rw [invalid] at marked
    contradiction
  · have valid := canonical.divisor .invalid marked
    contradiction

theorem withScaleMarked (u : MetricUnit) (p : Prefix) : (u.withScale p).Marked ↔ u.Marked := Iff.rfl

theorem withDivisorUnmarked (u : MetricUnit) (m : Measure) : ¬ (u.withDivisor m).Marked := by
  unfold Marked withDivisor
  split
  · rename_i valid
    intro marked
    obtain rfl := Option.some.inj marked
    contradiction
  · nofun

theorem rescaleUnmarked (u : MetricUnit) (p : Prefix) : ¬ (u.rescale p).2.Marked := by
  unfold rescale
  dsimp only
  split
  · exact (withScaleMarked _ p).not.mpr (parseUnmarked u.short)
  · nofun

theorem decodeMarked (u : MetricUnit) (text : String) :
    (apply u (.decode text)).Marked ↔
      (Operation.decode text).Marks ∨ (Operation.decode text).Keeps ∧ u.Marked := by
  cases made : ofText text with
  | ok v =>
    have result : apply u (.decode text) = v := by rw [apply, made]
    rw [result]
    refine ⟨fun marked => .inl (.decode made marked), ?_⟩
    rintro (marks | ⟨keeps, _⟩)
    · cases marks with
      | decode again marked =>
        obtain rfl := Except.ok.inj (made.symm.trans again)
        exact marked
    · cases keeps with
      | decode refused => cases made.symm.trans refused
  | error e =>
    -- a text that is no unit leaves the unit that there was, with its divisor
    have result : apply u (.decode text) = u := by rw [apply, made]
    rw [result]
    refine ⟨fun marked => .inr ⟨.decode made, marked⟩, ?_⟩
    rintro (marks | ⟨_, marked⟩)
    · cases marks with
      | decode accepted _ => cases made.symm.trans accepted
    · exact marked

theorem applyMarked (u : MetricUnit) (o : Operation) :
    (apply u o).Marked ↔ o.Marks ∨ o.Keeps ∧ u.Marked := by
  cases o with
  | invalid => exact iff_of_false nofun nofun
  | make scale measure => exact iff_of_false nofun nofun
  | parse literal => exact iff_of_false (parseUnmarked literal) nofun
  | decode text => exact decodeMarked u text
  | withScale p =>
    refine ⟨fun marked => .inr ⟨.withScale p, marked⟩, ?_⟩
    rintro (marks | ⟨_, marked⟩)
    · cases marks
    · exact marked
  | withDivisor m => exact iff_of_false (withDivisorUnmarked u m) nofun
  | rescale p => exact iff_of_false (rescaleUnmarked u p) nofun

def EndsMarked (operations : List Operation) : Prop :=
  ∃ before o after, operations = before ++ o :: after ∧ o.Marks ∧ ∀ later ∈ after, later.Keeps

theorem endsMarkedAppend (operations : List Operation) (o : Operation) :
    EndsMarked (operations ++ [o]) ↔ o.Marks ∨ o.Keeps ∧ EndsMarked operations := by
  constructor
  · rintro ⟨before, mark, after, split, marks, kept⟩
    rcases List.eq_nil_or_concat after with rfl | ⟨after, last, rfl⟩
    · obtain ⟨rfl, same⟩ := List.append_inj' split rfl
      cases same
      exact .inl marks
    · rw [List.concat_eq_append, ← List.cons_append, ← List.append_assoc] at split
      obtain ⟨rfl, same⟩ := List.append_inj' split rfl
      cases same
      rw [List.concat_eq_append] at kept
      obtain ⟨kept, last⟩ := List.forall_mem_append.mp kept
      exact .inr ⟨last o (List.mem_singleton_self o), before, mark, after, rfl, marks, kept⟩
  · rintro (marks | ⟨keeps, before, mark, after, rfl, marks, kept⟩)
    · exact ⟨operations, o, [], rfl, marks, nofun⟩
    · refine ⟨before, mark, after ++ [o], by simp, marks, ?_⟩
      exact List.forall_mem_append.mpr ⟨kept, by simpa using keeps⟩

theorem runMarked (operations : List Operation) : (run operations).Marked ↔ EndsMarked operations := by
  induction operations using List.reverseRecOn with
  | nil =>
    refine iff_of_false nofun ?_
    rintro ⟨before, o, after, split, _⟩
    simp at split
  | append_singleton operations o ih => rw [runAppend, applyMarked, endsMarkedAppend, ih]

def NoDivisor (u : MetricUnit) : Prop := ∀ d ∈ u.divisor, ¬ d.isValid

theorem NoDivisor.divisor {u : MetricUnit} (bare : u.NoDivisor) :
    u.divisor = none ∨ u.Marked := by
  cases divided : u.divisor with
  | none => exact .inl rfl
  | some d =>
    have unknown := bare d divided
    obtain rfl : d = .invalid := by
      by_contra other
      exact unknown (by simpa [Measure.isValid] using other)
    exact .inr divided

theorem bareEqIff {u v : MetricUnit} (scale : u.scale = v.scale) (measure : u.measure = v.measure)
    (left : u.NoDivisor) (right : v.NoDivisor) : u = v ↔ (u.Marked ↔ v.Marked) := by
  refine ⟨fun same => same ▸ Iff.rfl, fun both => ?_⟩
  have divisor : u.divisor = v.divisor := by
    by_cases marked : u.Marked
    · exact marked.trans (both.mp marked).symm
    · have other : ¬ v.Marked := fun mark => marked (both.mpr mark)
      exact (left.divisor.resolve_right marked).trans (right.divisor.resolve_right other).symm
  cases u
  cases v
  exact MetricUnit.mk.injEq .. ▸ ⟨scale, measure, divisor⟩

/- However a unit comes about, its divisor is none or a measure, unless it was read with another one
and only its prefix has been changed since. Two units of one prefix and measure that have no measure for
a divisor are the same if this holds of both or of none. -/
theorem divisorOfRun (operations : List Operation) :
    ((run operations).divisor = some .invalid ↔ EndsMarked operations) ∧
    ∀ others, (run operations).scale = (run others).scale → (run operations).measure = (run others).measure →
      (run operations).NoDivisor → (run others).NoDivisor →
      (run operations = run others ↔ (EndsMarked operations ↔ EndsMarked others)) := by
  refine ⟨runMarked operations, fun others scale measure left right => ?_⟩
  rw [bareEqIff scale measure left right, runMarked, runMarked]

theorem invalidDivisorKept :
    let text := r#"{"prefix":"Kilo","measure":"Bytes","divisor":"Invalid"}"#
    let marked := [Operation.decode text, .withScale .mega]
    let plain := [Operation.parse "KB", .withScale .mega]
    run marked = ⟨.mega, .bytes, some .invalid⟩ ∧ MetricUnit.parse (run marked).short = run plain ∧
    EndsMarked marked ∧ ¬ EndsMarked plain ∧ run marked ≠ run plain := by
  intro text marked plain
  have made : run marked = ⟨.mega, .bytes, some .invalid⟩ := by decide +kernel
  have bare : run plain = ofMeasure .mega .bytes := by decide +kernel
  have read : MetricUnit.parse (run marked).short = run plain := by
    rw [made, bare]
    decide +kernel
  have ends : EndsMarked marked := (divisorOfRun marked).1.mp (by rw [made])
  have clean : ¬ EndsMarked plain := (divisorOfRun plain).1.not.mp (by rw [bare]; decide)
  have differ := (divisorOfRun marked).2 plain (by rw [made, bare]; rfl) (by rw [made, bare]; rfl)
    (by rw [made]; simp [NoDivisor, Measure.isValid]) (by rw [bare]; simp [NoDivisor, ofMeasure])
  exact ⟨made, read, ends, clean, differ.not.mpr fun both => clean (both.mp ends)⟩

end MetricUnits.MetricUnit
