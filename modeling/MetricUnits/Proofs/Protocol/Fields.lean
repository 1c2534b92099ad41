import MetricUnits.Proofs.Protocol.Requests

/-! Which fields of its parameters a request depends on. Decoding goes through the fields of an object one
after the other, passes over those that it does not know, and ends with the first fault. Still all that
matters is what the known names stand for, and so requests that agree on these are answered alike. -/
namespace MetricUnits
open Json

namespace Params
variable {α β σ : Type}

abbrev Ordered (entries : List (String × α)) : Prop := entries.Pairwise (fun a b => a.1 < b.1)

/- Goes through entries, and does something with those whose name the others have as well. -/
def paired (act : α → β → σ → Except Fault σ) (others : List (String × β)) :
    List (String × α) → σ → Except Fault σ
  | [], made => .ok made
  | (name, a) :: rest, made =>
      match others.lookup name with
      | some b => do paired act others rest (← act a b made)
      | none => paired act others rest made

variable {act : α → β → σ → Except Fault σ}

theorem pairedNone (entries : List (String × α)) (made : σ) : paired act [] entries made = .ok made := by
  induction entries with
  | nil => rfl
  | cons a entries ih => exact ih

theorem pairedSkips {other : String × β} {entries : List (String × α)}
    (foreign : ∀ a ∈ entries, a.1 ≠ other.1) (others : List (String × β)) (made : σ) :
    paired act (other :: others) entries made = paired act others entries made := by
  induction entries generalizing made with
  | nil => rfl
  | cons a entries ih =>
    obtain ⟨first, rest⟩ := List.forall_mem_cons.mp foreign
    have lookup : (other :: others).lookup a.1 = others.lookup a.1 := by
      rw [List.lookup_cons, beq_false_of_ne first]
    rw [paired, paired, lookup]
    split
    · exact bind_congr fun next => ih rest next
    · exact ih rest made

theorem pairedForeign {a : String × α} {others : List (String × β)} (foreign : ∀ b ∈ others, b.1 ≠ a.1)
    (entries : List (String × α)) (made : σ) :
    paired act others (a :: entries) made = paired act others entries made := by
  have lookup : others.lookup a.1 = none := by
    refine List.lookup_eq_none_iff.mpr fun b mem => ?_
    simpa using (foreign b mem).symm
  rw [paired, lookup]

theorem pairedFound {a : String × α} {b : String × β} (same : a.1 = b.1) (others : List (String × β))
    (entries : List (String × α)) (made : σ) :
    paired act (b :: others) (a :: entries) made =
      act a.2 b.2 made >>= paired act (b :: others) entries := by
  rw [paired, same, List.lookup_cons_self]

theorem orderedForeign {a : String × α} {b : String × β} {others : List (String × β)}
    (first : ∀ c ∈ others, b.1 < c.1) (before : a.1 < b.1 ∨ a.1 = b.1) : ∀ c ∈ others, c.1 ≠ a.1 := by
  intro c mem
  rcases before with before | same
  · exact (String.ne_of_lt (String.lt_trans before (first c mem))).symm
  · exact (String.ne_of_lt (same ▸ first c mem)).symm

theorem pairedSwap {entries : List (String × α)} {others : List (String × β)} (left : Ordered entries)
    (right : Ordered others) (made : σ) :
    paired act others entries made = paired (fun b a => act a b) entries others made := by
  induction entries generalizing others made with
  | nil => exact (pairedNone others made).symm
  | cons a entries outer =>
    induction others generalizing made with
    | nil => exact pairedNone _ made
    | cons b others inner =>
      obtain ⟨leftFirst, leftRest⟩ := List.pairwise_cons.mp left
      obtain ⟨rightFirst, rightRest⟩ := List.pairwise_cons.mp right
      -- the entry that comes first is foreign to the other list, unless both have the same name
      by_cases before : a.1 < b.1
      · have foreign : ∀ c ∈ b :: others, c.1 ≠ a.1 := List.forall_mem_cons.mpr
          ⟨(String.ne_of_lt before).symm, orderedForeign rightFirst (.inl before)⟩
        rw [pairedForeign foreign, pairedSkips foreign]
        exact outer leftRest right made
      by_cases same : a.1 = b.1
      · rw [pairedFound same, pairedFound same.symm]
        refine bind_congr fun next => ?_
        rw [pairedSkips (orderedForeign leftFirst (.inr same.symm)),
          pairedSkips (orderedForeign rightFirst (.inr same))]
        exact outer leftRest rightRest next
      · have after : b.1 < a.1 := Std.lt_of_le_of_ne (String.not_lt.mp before) (Ne.symm same)
        have foreign : ∀ c ∈ a :: entries, c.1 ≠ b.1 := List.forall_mem_cons.mpr
          ⟨same, orderedForeign leftFirst (.inl after)⟩
        rw [pairedSkips foreign, pairedForeign foreign]
        exact inner rightRest made

def store (decode : Json → Except Fault α) (keep : α → σ → σ) (x : Json) (made : σ) : Except Fault σ :=
  (decode x).map (keep · made)

abbrev Known (σ : Type) := List (String × (Json → σ → Except Fault σ))

def inTurn (known : Known σ) (fields : List (String × Json)) (made : σ) : Except Fault σ :=
  paired (fun x take => take x) known fields made

def byName (fields : List (String × Json)) (known : Known σ) (made : σ) : Except Fault σ :=
  paired (fun take x => take x) fields known made

theorem inTurnByName {known : Known σ} {fields : List (String × Json)} (names : Ordered known)
    (ordered : Ordered fields) (made : σ) : inTurn known fields made = byName fields known made :=
  pairedSwap ordered names made

theorem byNameStore (key : String) (decode : Json → Except Fault α) (keep : α → σ → σ)
    (fields : List (String × Json)) (known : Known σ) (made : σ) :
    byName fields ((key, store decode keep) :: known) made = (do
      let found ← field? key decode (.object fields)
      byName fields known (match found with | some x => keep x made | none => made)) := by
  unfold byName
  rw [paired, field?, Json.field?]
  cases fields.lookup key with
  | none => rfl
  | some x => cases decoded : decode x <;> simp [store, decoded, Except.map, bind, Except.bind]

structure Slots where
  first : Option String := none
  second : Option String := none
  value : Option Sample := none

def slots (first second : String) : Known Slots :=
  [(first, store text fun s made => { made with first := some s }),
   (second, store text fun s made => { made with second := some s }),
   ("value", store sample fun x made => { made with value := some x })]

theorem slotsInTurn {first second : String} (names : first < second ∧ second < "value")
    {fields : List (String × Json)} (ordered : Ordered fields) (finish : Slots → Except Fault α) :
    (inTurn (slots first second) fields {} >>= finish) = (do
      let s ← field? first text (.object fields)
      let t ← field? second text (.object fields)
      let x ← field? "value" sample (.object fields)
      finish ⟨s, t, x⟩) := by
  have sorted : Ordered (slots first second) := by
    simp only [Ordered, slots, List.pairwise_cons, List.forall_mem_cons]
    exact ⟨⟨names.1, String.lt_trans names.1 names.2, nofun⟩, ⟨names.2, nofun⟩, nofun, .nil⟩
  rw [inTurnByName sorted ordered, slots, byNameStore, bind_assoc]
  refine bind_congr fun s => ?_
  rw [byNameStore, bind_assoc]
  refine bind_congr fun t => ?_
  rw [byNameStore, bind_assoc]
  refine bind_congr fun x => ?_
  cases s <;> cases t <;> cases x <;> rfl

end Params

section InTurn
open Params
variable {fields : List (String × Json)}

namespace ParseParams

def known : Known (Option String) := [("unit", store text fun s _ => some s)]

def ofFieldsInTurn (fields : List (String × Json)) : Except Fault ParseParams := do
  let literal ← inTurn known fields none
  return ⟨← require "unit" literal⟩

theorem inTurnSame (ordered : Ordered fields) : ofFieldsInTurn fields = ofFields (.object fields) := by
  have names : Ordered known := List.pairwise_singleton _ _
  rw [ofFieldsInTurn, inTurnByName names ordered, known, byNameStore, bind_assoc]
  refine bind_congr fun literal => ?_
  cases literal <;> rfl

end ParseParams

namespace ConvertParams

def ofFieldsInTurn (fields : List (String × Json)) : Except Fault ConvertParams := do
  let made ← inTurn (slots "from" "to") fields {}
  return ⟨← require "value" made.value, ← require "from" made.first, ← require "to" made.second⟩

theorem inTurnSame (ordered : Ordered fields) : ofFieldsInTurn fields = ofFields (.object fields) :=
  slotsInTurn (by decide) ordered _

end ConvertParams

namespace RescaleParams

def ofFieldsInTurn (fields : List (String × Json)) : Except Fault RescaleParams := do
  let made ← inTurn (slots "prefix" "unit") fields {}
  return ⟨← require "value" made.value, ← require "unit" made.second, ← require "prefix" made.first⟩

theorem inTurnSame (ordered : Ordered fields) : ofFieldsInTurn fields = ofFields (.object fields) :=
  slotsInTurn (by decide) ordered _

end RescaleParams

/- The fields of parameters that were read from a line are ordered, so that decoding them in turn and
looking them up come to the same, faults included. -/
theorem Request.paramsInTurn {line : String} {r : Request} (accepted : ofLine line = .ok r)
    (object : r.params = .object fields) :
    ParseParams.ofFieldsInTurn fields = ParseParams.ofJson r.params ∧
    ConvertParams.ofFieldsInTurn fields = ConvertParams.ofJson r.params ∧
    RescaleParams.ofFieldsInTurn fields = RescaleParams.ofJson r.params := by
  have within := (ofLineInside accepted).params
  rw [object] at within ⊢
  cases within with
  | object ordered values =>
    exact ⟨ParseParams.inTurnSame ordered, ConvertParams.inTurnSame ordered,
      RescaleParams.inTurnSame ordered⟩

end InTurn

def Method.keys : Method → List String
  | .parse => ["unit"]
  | .convert => ["value", "from", "to"]
  | .convertPrefix => ["value", "unit", "prefix"]
  | .listPrefixes => []
  | .listMeasures => []

structure Agree (keys : List String) (a b : Json) : Prop where
  left : ∃ fields, a = .object fields
  right : ∃ fields, b = .object fields
  same : ∀ key ∈ keys, a.field? key = b.field? key

namespace Agree
variable {α : Type} {keys : List String} {a b : Json}

theorem field (agree : Agree keys a b) (key : String) (known : key ∈ keys)
    (decode : Json → Except Fault α) : Params.field? key decode a = Params.field? key decode b := by
  rw [Params.field?, Params.field?, agree.same key known]

theorem parse (agree : Agree Method.parse.keys a b) : ParseParams.ofJson a = ParseParams.ofJson b := by
  have unit := agree.field "unit" (by decide) Params.text
  obtain ⟨⟨_, rfl⟩, ⟨_, rfl⟩, _⟩ := agree
  simp only [ParseParams.ofJson, ParseParams.ofFields, unit]

theorem convert (agree : Agree Method.convert.keys a b) : ConvertParams.ofJson a = ConvertParams.ofJson b := by
  have value := agree.field "value" (by decide) Params.sample
  have source := agree.field "from" (by decide) Params.text
  have target := agree.field "to" (by decide) Params.text
  obtain ⟨⟨_, rfl⟩, ⟨_, rfl⟩, _⟩ := agree
  simp only [ConvertParams.ofJson, ConvertParams.ofFields, value, source, target]

theorem convertPrefix (agree : Agree Method.convertPrefix.keys a b) :
    RescaleParams.ofJson a = RescaleParams.ofJson b := by
  have value := agree.field "value" (by decide) Params.sample
  have literal := agree.field "unit" (by decide) Params.text
  have token := agree.field "prefix" (by decide) Params.text
  obtain ⟨⟨_, rfl⟩, ⟨_, rfl⟩, _⟩ := agree
  simp only [RescaleParams.ofJson, RescaleParams.ofFields, value, literal, token]

end Agree

namespace Answer

theorem ofMethodAgree {m : Method} {a b : Json} (agree : m.keys = [] ∨ Agree m.keys a b) :
    ofMethod m a = ofMethod m b := by
  cases m with
  | parse => rw [ofMethod, ofMethod, (agree.resolve_left nofun).parse]
  | convert => rw [ofMethod, ofMethod, (agree.resolve_left nofun).convert]
  | convertPrefix => rw [ofMethod, ofMethod, (agree.resolve_left nofun).convertPrefix]
  | listPrefixes => rfl
  | listMeasures => rfl

theorem ofRequestAgree {r s : Request} (method : r.method = s.method)
    (agree : ∀ m : Method, r.method = m.name → m.keys = [] ∨ Agree m.keys r.params s.params) :
    ofRequest r = ofRequest s := by
  unfold ofRequest
  rw [← method]
  cases found : Method.ofName? r.method with
  | none => rfl
  | some m =>
    have named : m.name = r.method := by simpa using List.find?_some found
    exact ofMethodAgree (agree m named.symm)

end Answer

namespace Response

/- Requests of the same method are answered alike, but for their ids, if their parameters agree on the
fields that the method looks at; and whatever they are, if it looks at none or is unknown. What is looked
up here is what is met when the fields are gone through in turn, up to the first fault. -/
theorem outcomeOfFields :
    (∀ r s : Request, r.method = s.method →
      (∀ m : Method, r.method = m.name → m.keys = [] ∨ Agree m.keys r.params s.params) →
      (ofRequest r).outcome = (ofRequest s).outcome) ∧
    ∀ line r fields, Request.ofLine line = .ok r → r.params = .object fields →
      ParseParams.ofFieldsInTurn fields = ParseParams.ofJson r.params ∧
      ConvertParams.ofFieldsInTurn fields = ConvertParams.ofJson r.params ∧
      RescaleParams.ofFieldsInTurn fields = RescaleParams.ofJson r.params := by
  refine ⟨fun r s method agree => ?_, fun line r fields accepted object => ?_⟩
  · rw [ofRequest, ofRequest, Answer.ofRequestAgree method agree]
  · exact Request.paramsInTurn accepted object

/- Two fields are wrong, and the same one is reported whatever stands before it and behind. -/
theorem foreignFieldsPassed :
    let fields : List (String × Json) :=
      [("a", .bool true), ("from", .null), ("garbage", .array []), ("to", .null)]
    let r : Request := ⟨.null, "convert", .object [("from", .null), ("to", .null)]⟩
    let s : Request := ⟨.string "b", "convert", .object fields⟩
    (ofRequest r).outcome = (ofRequest s).outcome ∧
      ConvertParams.ofFieldsInTurn fields = .error (.wrongType .null "a string") := by
  intro fields r s
  have agree : Agree Method.convert.keys r.params s.params := by
    refine ⟨⟨_, rfl⟩, ⟨_, rfl⟩, ?_⟩
    simp only [Method.keys, List.forall_mem_cons]
    exact ⟨rfl, rfl, rfl, nofun⟩
  have params : Within Number.Readable (nestingLimit - 1) s.params := by
    refine .object (List.pairwise_map.mp
      (by decide : ["a", "from", "garbage", "to"].Pairwise (· < ·))) ?_
    simp only [fields, List.forall_mem_cons]
    exact ⟨.bool true, .null, .array nofun, .null, nofun⟩
  have accepted : Request.ofLine s.line = .ok s := Request.lineReads (.string "b") params
  have inTurn := (outcomeOfFields.2 s.line s fields accepted rfl).2.1
  refine ⟨outcomeOfFields.1 r s rfl fun m named => ?_, inTurn.trans rfl⟩
  have named : "convert" = m.name := named
  cases m with
  | convert => exact .inr agree
  | _ => exact absurd named (by decide)

end Response
end MetricUnits
