import MetricUnits.Program
import MetricUnits.Proofs.Json.Limits
import MetricUnits.Proofs.Json.Records
import MetricUnits.Proofs.Protocol.Answers

/-! Requests as they come from lines, and their ids. What the fields of a record are read as keeps to the
limits of their readers, so id and parameters hold only finite numbers and ordered fields. A request on one
line is read back as it was written, and so is the response to it with its id, however it turns out. -/
namespace MetricUnits
open Json

namespace Json.Reader
variable {α : Type} {good : α → Prop}

theorem wrongTypeEnsures (expected : String) : Ensures good (wrongType expected) := by
  refine (Ensures.anyway _).bind fun next _ => ?_
  split
  · exact .fail _
  · split
    · exact .fail _
    split
    · exact .fail _
    · exact (Ensures.anyway _).bind fun _ _ => .fail _

theorem expectingEnsures (expected : String) (begins : Char → Bool) {reader : Reader α}
    (ensures : Ensures good reader) : Ensures good (expecting expected begins reader) := by
  refine (Ensures.anyway _).bind fun next _ => ?_
  split
  · exact .fail _
  · split
    · exact ensures
    · exact wrongTypeEnsures expected

theorem recordEnsures (expected : String) {layouts : Layouts α} {depth : Nat}
    (sequence : Ensures good (layouts.sequence depth)) (map : Ensures good (layouts.map depth)) :
    Ensures good (record expected layouts (depth + 1)) := by
  refine expectingEnsures _ _ ((Ensures.anyway _).bind fun bracket _ => ?_)
  split
  · exact sequence.bind fun x holds => (Ensures.anyway _).bind fun _ _ => .pure holds
  · exact map

variable {reader : Reader α}

theorem optionalEnsures (ensures : Ensures good reader) :
    Ensures (fun found => ∀ x ∈ found, good x) (optional reader) := by
  refine (Ensures.anyway _).bind fun next _ => ?_
  split
  · exact (Ensures.anyway _).bind fun _ _ => (Ensures.anyway _).bind fun _ _ => .pure (by simp)
  · exact ensures.bind fun x holds => .pure (by simpa using holds)

theorem itemEnsures (index : Nat) (ensures : Ensures good reader) :
    Ensures (fun found => ∀ x ∈ found, good x) (item? index reader) := by
  refine (Ensures.anyway _).bind fun more _ => ?_
  split
  · exact ensures.bind fun x holds => .pure (by simpa using holds)
  · exact .pure (by simp)

theorem onceFieldEnsures (key : String) (before : Option α) (ensures : Ensures good reader) :
    Ensures (fun found => ∀ x ∈ found, good x) (onceField key before reader) := by
  unfold onceField
  split
  · exact .fail _
  · exact (Ensures.anyway _).bind fun _ _ => ensures.bind fun x holds => .pure (by simpa using holds)

end Json.Reader

def Json.Number.IsWhole (n : Number) : Prop := n.Readable ∧ ∃ i, n = .integer i

theorem Json.Reader.optionalReads (spacing : Spacing) {depth : Nat} {j : Json}
    (within : Within Number.Readable depth j) (level : Nat) :
    ∃ found : Option Json, found.getD .null = j ∧ ∀ rest, Stops rest →
      optional (value depth) (spacing.chars level j ++ rest) = .ok (found, rest) := by
  obtain ⟨c, more, text, dark, _, null⟩ := spacing.charsFirst level within
  by_cases first : c = 'n'
  · refine ⟨none, (null first).symm, fun rest _ => ?_⟩
    simp [null first, optional, word, Spacing.chars, isBlank]
  · refine ⟨some j, rfl, fun rest stop => ?_⟩
    have read : value depth (spacing.chars level j ++ rest) = .ok (j, rest) :=
      valueReads within level stop
    rw [text, List.cons_append] at read ⊢
    simp [optional, dark, first, read]

namespace Request
open Reader

structure Inside (depth : Nat) (r : Request) : Prop where
  id : Within Number.Readable depth r.id
  params : Within Number.Readable depth r.params

structure Partial.Inside (depth : Nat) (made : Partial) : Prop where
  id : ∀ found ∈ made.id, ∀ j ∈ found, Within Number.Readable depth j
  params : ∀ j ∈ made.params, Within Number.Readable depth j

variable {depth : Nat}

theorem nullOrWithin {found : Option Json} (holds : ∀ j ∈ found, Within Number.Readable depth j) :
    Within Number.Readable depth (found.getD .null) := by
  cases found with
  | none => exact .null
  | some j => exact holds j rfl

theorem joinWithin {found : Option (Option Json)}
    (holds : ∀ given ∈ found, ∀ j ∈ given, Within Number.Readable depth j) :
    Within Number.Readable depth (found.join.getD .null) := by
  cases found with
  | none => exact .null
  | some given => exact nullOrWithin (holds given rfl)

theorem readFieldInside (made : Partial) (key : String) (inside : made.Inside depth) :
    Ensures (Partial.Inside depth) (readField depth made key) := by
  unfold readField
  split
  · exact (onceFieldEnsures _ _ (optionalEnsures (valueWithin depth))).bind fun found holds =>
      .pure ⟨holds, inside.params⟩
  · exact (Ensures.anyway _).bind fun method _ => .pure ⟨inside.id, inside.params⟩
  · exact (onceFieldEnsures _ _ (valueWithin depth)).bind fun found holds => .pure ⟨inside.id, holds⟩
  · exact (Ensures.anyway _).bind fun _ _ => .pure inside

theorem sequenceInside : Ensures (Inside depth) (layouts.sequence depth) := by
  refine (itemEnsures 0 (optionalEnsures (valueWithin depth))).bind fun id idHolds => ?_
  refine (Ensures.anyway _).bind fun method _ => ?_
  refine (itemEnsures 2 (valueWithin depth)).bind fun params paramsHold => ?_
  exact .pure ⟨joinWithin idHolds, nullOrWithin paramsHold⟩

theorem mapInside : Ensures (Inside depth) (layouts.map depth) := by
  refine (fieldsEnsures readFieldInside ⟨by simp, by simp⟩).bind fun made inside => ?_
  refine (Ensures.anyway _).bind fun method _ => ?_
  exact .pure ⟨joinWithin inside.id, nullOrWithin inside.params⟩

theorem ofLineInside {line : String} {r : Request} (accepted : ofLine line = .ok r) :
    r.Inside (nestingLimit - 1) :=
  wholeEnsures (recordEnsures "struct Request" sequenceInside mapInside) accepted

def line (r : Request) : String :=
  compact (.object [("id", r.id), ("method", .string r.method), ("params", r.params)])

theorem fieldsRun {r : Request} {depth : Nat} (id : Within Number.Readable depth r.id)
    (params : Within Number.Readable depth r.params) : ∃ found : Option Json, found.getD .null = r.id ∧
      FieldRun (readField depth) Spacing.none 1 {}
        [("id", r.id), ("method", .string r.method), ("params", r.params)]
        ⟨some found, some r.method, some r.params⟩ := by
  obtain ⟨found, same, read⟩ := optionalReads .none id 1
  have first (rest : List Char) (stop : Stops rest) :
      readField depth {} "id" (':' :: (Spacing.none.chars 1 r.id ++ rest)) =
        .ok (⟨some found, none, none⟩, rest) := by
    simp [readField, onceField, colonReads, read rest stop]
  have second (rest : List Char) :
      readField depth ⟨some found, none, none⟩ "method" (':' :: (stringChars r.method ++ rest)) =
        .ok (⟨some found, some r.method, none⟩, rest) := by
    simp [readField, onceField, colonReads, stringReads]
  have third (rest : List Char) (stop : Stops rest) :
      readField depth ⟨some found, some r.method, none⟩ "params"
        (':' :: (Spacing.none.chars 1 r.params ++ rest)) =
          .ok (⟨some found, some r.method, some r.params⟩, rest) := by
    simp [readField, onceField, colonReads, valueReads params 1 stop]
  exact ⟨found, same, .next first (.next (fun rest _ => second rest) (.next third .done))⟩

theorem lineReads {r : Request} (id : Within Number.Readable (nestingLimit - 1) r.id)
    (params : Within Number.Readable (nestingLimit - 1) r.params) : ofLine r.line = .ok r := by
  obtain ⟨found, same, run⟩ := fieldsRun id params
  rw [line, ← Spacing.noneText]
  refine recordAccepted rfl run ?_
  simp [require, same]

end Request

namespace Response
variable {fails : ErrorReport → Prop}

theorem reportWithin (report : ErrorReport) : Within Number.Readable 2 report.toJson := by
  unfold ErrorReport.toJson
  cases report.suggestion with
  | none => exact Answer.fieldsWithin ["code", "message"] rfl (by decide) (by simp)
  | some s => exact Answer.fieldsWithin ["code", "message", "suggestion"] rfl (by decide) (by simp)

theorem toJsonFields {r : Response} (sends : Yields fails (Within Number.Readable 2) r.outcome) :
    ∃ key x, r.toJson = .object [("id", r.id), (key, x)] ∧ key ≠ "id" ∧ Within Number.Readable 2 x := by
  unfold toJson
  cases outcome : r.outcome with
  | ok result =>
    rw [outcome] at sends
    exact ⟨"result", result, rfl, by decide, sends⟩
  | error report => exact ⟨"error", report.toJson, rfl, by decide, reportWithin report⟩

theorem orderedId (v x : Json) {key : String} (other : key ≠ "id") :
    (Json.object (ordered [("id", v), (key, x)])).field? "id" = some v := by
  have beq : ("id" == key) = false := by simpa using other.symm
  by_cases before : key < "id"
  · simp [ordered, insertField, before, field?, List.lookup_cons, beq]
  · simp [ordered, insertField, before, other, field?]

theorem writtenSpacing (config : Config) (r : Response) : ∃ spacing : Spacing,
    (Program.write config r).toList = spacing.chars 0 r.toJson ++ ['\n'] := by
  unfold Program.write
  cases config.pretty with
  | true => exact ⟨.lines, by simp [pretty, Spacing.prettySpacing]⟩
  | false => exact ⟨.none, by simp [compact, Spacing.compactSpacing 0]⟩

theorem writtenReads (config : Config) {r : Response}
    (id : Within Number.Readable (nestingLimit - 1) r.id)
    (sends : Yields fails (Within Number.Readable 2) r.outcome) :
    ∃ answer, Json.read (Program.write config r) = .ok answer ∧ answer.field? "id" = some r.id := by
  obtain ⟨key, x, fields, other, within⟩ := toJsonFields sends
  obtain ⟨spacing, text⟩ := writtenSpacing config r
  have reads : ∀ f ∈ [("id", r.id), (key, x)], ∀ rest, Reader.Stops rest →
      Reader.value (nestingLimit - 1) (spacing.chars 1 f.2 ++ rest) = .ok (f.2, rest) := by
    intro f mem rest stop
    have inner : Within Number.Readable (nestingLimit - 1) f.2 := by
      obtain rfl | rfl : f = ("id", r.id) ∨ f = (key, x) := by simpa using mem
      · exact id
      · exact within.mono (fun _ readable => readable) (by decide)
    exact Reader.valueReads inner 1 stop
  have read : Reader.value nestingLimit
      (spacing.chars 0 (.object [("id", r.id), (key, x)]) ++ ['\n']) =
        .ok (.object (ordered [("id", r.id), (key, x)]), ['\n']) := Reader.objectReads reads ['\n']
  refine ⟨_, ?_, orderedId r.id x other⟩
  unfold Json.read readWhole
  rw [text, fields, read]
  rfl

theorem ofLineAccepted {line : String} {r : Request} (accepted : Request.ofLine line = .ok r) :
    ofLine line = ofRequest r := by
  rw [ofLine, accepted]

theorem ofRequestSends (r : Request) : Yields (fun report => report.code ≠ "PARSE_ERROR")
    (Within Number.Readable 2) (ofRequest r).outcome :=
  (Answer.ofRequestSends r).mapError fun _ of => of.code

/- With doubles in the parameters, the whole request is read back as it was written only because they are
read correctly rounded; the id holds none, and comes back either way. -/
theorem idEchoed (config : Config) :
    (∀ r : Request, Within Number.IsWhole (nestingLimit - 1) r.id →
      Within Number.Readable (nestingLimit - 1) r.params →
      Request.ofLine r.line = .ok r ∧ ∃ answer,
        Json.read (Program.write config (ofLine r.line)) = .ok answer ∧
        answer.field? "id" = some r.id) ∧
    (∀ line e, Request.ofLine line = .error e →
      ∃ report, ofLine line = ⟨.null, .error report⟩ ∧ report.code = "PARSE_ERROR") ∧
    (∀ line r, Request.ofLine line = .ok r →
      ∀ report, (ofLine line).outcome = .error report → report.code ≠ "PARSE_ERROR") := by
  refine ⟨fun r id params => ?_, fun line e refused => ?_, fun line r accepted report failed => ?_⟩
  · have readable : Within Number.Readable (nestingLimit - 1) r.id :=
      id.mono (fun _ whole => whole.1) (Nat.le_refl _)
    have accepted := Request.lineReads readable params
    refine ⟨accepted, ?_⟩
    rw [ofLineAccepted accepted]
    exact writtenReads config readable (ofRequestSends r)
  · rw [ofLine, refused]
    exact ⟨_, rfl, rfl⟩
  · have sends := ofRequestSends r
    rw [← ofLineAccepted accepted, failed] at sends
    exact sends

theorem idsOfTwoLines :
    let r : Request :=
      ⟨.object [("a", .array [.null, .number (.integer (-1))]), ("b", .string "\n")], "nope", .null⟩
    let config : Config := ⟨"info", true⟩
    (∃ answer, Json.read (Program.write config (ofLine r.line)) = .ok answer ∧
      answer.field? "id" = some r.id) ∧
    (∃ report, (ofLine r.line).outcome = .error report ∧ report.code ≠ "PARSE_ERROR") ∧
    ∃ report, ofLine "[1]" = ⟨.null, .error report⟩ ∧ report.code = "PARSE_ERROR" := by
  intro r config
  have whole : (Number.integer (-1)).IsWhole := ⟨.inl (by decide), -1, rfl⟩
  have id : Within Number.IsWhole (nestingLimit - 1) r.id := by
    refine .object (List.pairwise_map.mp (by decide : ["a", "b"].Pairwise (· < ·))) ?_
    simp only [List.forall_mem_cons, List.not_mem_nil, false_imp_iff, forall_true_iff, and_true]
    refine ⟨.array ?_, .string _⟩
    simp [Within.number whole]
  have law := idEchoed config
  obtain ⟨accepted, answered⟩ := law.1 r id .null
  have failed : (ofLine r.line).outcome = .error (UnitError.unknownMethod "nope").report := by
    rw [ofLineAccepted accepted]
    rfl
  have refused : Request.ofLine "[1]" = .error (.wrongLength 1 "struct Request with 3 elements") := rfl
  exact ⟨answered, ⟨_, failed, law.2.2 _ r accepted _ failed⟩, law.2.1 _ _ refused⟩

end Response

end MetricUnits
