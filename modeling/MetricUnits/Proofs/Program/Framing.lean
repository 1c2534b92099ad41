import MetricUnits.Proofs.Json.Condensing
import MetricUnits.Proofs.Program.Lines

/-! The lines that a run writes. Unless it writes prettily, each request has one line of the output, and
nothing in the request can end that line early or begin another one. The environment decides only how
answers are laid out: which requests are answered, and with what, is the same in both layouts. -/
namespace MetricUnits

theorem Json.Condenses.flatMap {α : Type} {f g : α → List Char}
    (each : ∀ x, Condenses (f x) (g x)) (l : List α) : Condenses (l.flatMap f) (l.flatMap g) := by
  induction l with
  | nil => exact .nil
  | cons x l ih => exact .append (each x) ih

namespace Program

def texts (lines : List (List UInt8)) : List String :=
  ((lines.map decode?).takeWhile (·.isSome)).filterMap id

def isWritten (s : String) : Bool := s.toList.any (!Text.isBlank ·)

def responses (lines : List (List UInt8)) : List Response :=
  ((texts lines).filter isWritten).map fun s => Response.ofLine (String.ofList (Text.trim s.toList))

/- The requests of a stream, in order: its lines without white space around them, except those that
have nothing else, up to the first one that is no text. -/
def requests (stdin : List UInt8) : List String :=
  ((texts (lines stdin)).filter isWritten).map fun s => String.ofList (Text.trim s.toList)

theorem responsesOfRequests (stdin : List UInt8) :
    responses (lines stdin) = (requests stdin).map Response.ofLine := by
  simp [responses, requests]

theorem isWrittenIff (s : String) : isWritten s = !(Text.trim s.toList).isEmpty := by
  rw [Bool.eq_iff_iff, Bool.not_eq_true', ← Bool.not_eq_true, List.isEmpty_iff, Text.trimEmptyIff]
  simp [isWritten]

theorem repliesResponses (config : Config) (lines : List (List UInt8)) :
    replies config lines = (responses lines).map (write config) := by
  induction lines with
  | nil => rfl
  | cons line rest ih =>
    rw [replies, reply]
    cases decoded : decode? line with
    | none => simp [responses, texts, decoded]
    | some s =>
      have first : texts (line :: rest) = s :: texts rest := by simp [texts, decoded]
      by_cases empty : (Text.trim s.toList).isEmpty
      · have skipped : responses (line :: rest) = responses rest := by
          rw [responses, first, List.filter_cons_of_neg (by simp [isWrittenIff, empty])]
          rfl
        simp only [empty, if_true, ih, skipped]
      · have answered : responses (line :: rest) =
            Response.ofLine (String.ofList (Text.trim s.toList)) :: responses rest := by
          rw [responses, first, List.filter_cons_of_pos (by simp [isWrittenIff, empty])]
          rfl
        simp only [empty, Bool.false_eq_true, if_false, ih, answered, List.map_cons]

theorem encodeJoin (l : List String) : encode (String.join l).toList = l.flatMap (encode ·.toList) := by
  rw [String.toList_join, encode, List.flatMap_assoc]
  rfl

theorem linesWhole {ls : List (List UInt8)} (single : ∀ line ∈ ls, 10 ∉ line) :
    lines (ls.flatMap (· ++ [10])) = ls := by
  induction ls with
  | nil => rfl
  | cons line ls ih =>
    obtain ⟨first, rest⟩ := List.forall_mem_cons.mp single
    rw [List.flatMap_cons, List.append_assoc, List.singleton_append, linesLine first, ih rest]

def frame (r : Response) : List UInt8 := encode r.toJson.compactChars

theorem framePrintable (r : Response) : ∀ b ∈ frame r, 32 ≤ b.toNat :=
  encodeLeast (by decide) (Json.compactPrintable r.toJson)

theorem frameSingle (r : Response) : 10 ∉ frame r := by
  intro mem
  have control := framePrintable r 10 mem
  exact absurd control (by decide)

theorem encodeWrite {config : Config} (plain : config.pretty = false) (r : Response) :
    encode (write config r).toList = frame r ++ [10] := by
  rw [write, plain, String.toList_append, encodeAppend]
  simp only [Bool.false_eq_true, if_false, Json.compact, String.toList_ofList]
  rfl

theorem responseFields (r : Response) : ∃ key value,
    r.toJson = .object [("id", r.id), (key, value)] ∧ (key = "result" ∨ key = "error") := by
  unfold Response.toJson
  cases r.outcome with
  | ok result => exact ⟨_, _, rfl, .inl rfl⟩
  | error report => exact ⟨_, _, rfl, .inr rfl⟩

theorem outputFrames {config : Config} (plain : config.pretty = false) (stdin : List UInt8) :
    let stdout := encode (output config stdin).toList
    let answers := responses (lines stdin)
    answers.length = (texts (lines stdin)).countP isWritten ∧
    stdout = answers.flatMap (fun r => frame r ++ [10]) ∧ lines stdout = answers.map frame ∧
    ∀ r ∈ answers, (∀ b ∈ frame r, 32 ≤ b.toNat) ∧ ∃ key value,
      r.toJson = .object [("id", r.id), (key, value)] ∧ (key = "result" ∨ key = "error") := by
  intro stdout answers
  have written : stdout = answers.flatMap (fun r => frame r ++ [10]) := by
    show encode (String.join (replies _ _)).toList = _
    rw [repliesResponses, encodeJoin, List.flatMap_map]
    simp only [encodeWrite plain]
    rfl
  refine ⟨?_, written, ?_, fun r _ => ⟨framePrintable r, responseFields r⟩⟩
  · rw [List.countP_eq_length_filter]
    exact List.length_map _
  · have framed : stdout = (answers.map frame).flatMap (· ++ [10]) := by
      rw [written, List.flatMap_map]
    rw [framed]
    refine linesWhole fun line mem => ?_
    obtain ⟨r, _, rfl⟩ := List.mem_map.mp mem
    exact frameSingle r

/- The id holds a line end and a quote, and the line behind it is no request. -/
theorem braceFramed :
    let request := r#"{"id":"a\n\"b","method":"x"}"#
    let stdin := encode (request ++ "\n \n" ++ r"{" ++ "\n").toList
    let quoted := Response.ofLine request
    let broken := Response.ofLine r"{"
    Config.initial.pretty = false ∧ quoted.id.compact = r#""a\n\"b""# ∧
    responses (lines stdin) = [quoted, broken] ∧
    lines (encode (output .initial stdin).toList) = [frame quoted, frame broken] ∧
    ∀ r ∈ [quoted, broken], (∀ b ∈ frame r, 32 ≤ b.toNat) ∧ ∃ key value,
      r.toJson = .object [("id", r.id), (key, value)] ∧ (key = "result" ∨ key = "error") := by
  intro request stdin quoted broken
  have found : requests stdin = [request, r"{"] := by decide +kernel
  have answers : responses (lines stdin) = [quoted, broken] := by
    rw [responsesOfRequests, found]
    rfl
  have id : quoted.id.compact = r#""a\n\"b""# := by decide +kernel
  have plain : Config.initial.pretty = false := rfl
  obtain ⟨_, _, framed, each⟩ := outputFrames plain stdin
  rw [answers] at framed each
  exact ⟨plain, id, answers, framed, each⟩

open Json

def answer (request : String) : Json := (Response.ofLine request).toJson

theorem outputText (config : Config) (stdin : List UInt8) :
    (output config stdin).toList =
      (requests stdin).flatMap fun s => (write config (Response.ofLine s)).toList := by
  show (String.join (replies config (lines stdin))).toList = _
  rw [String.toList_join, repliesResponses, responsesOfRequests, List.map_map, List.flatMap_map]
  rfl

theorem answerCondenses (request : String) :
    Condenses (answer request).pretty.toList (answer request).compact.toList := by
  simp only [pretty, compact, String.toList_ofList]
  exact prettyCondenses (answer request)

theorem outputPretty {config : Config} (enabled : config.pretty = true) (stdin : List UInt8) :
    (output config stdin).toList =
      (requests stdin).flatMap fun s => (answer s).pretty.toList ++ ['\n'] := by
  rw [outputText]
  simp [write, enabled, answer]

theorem outputCompact {config : Config} (disabled : config.pretty = false) (stdin : List UInt8) :
    (output config stdin).toList =
      (requests stdin).flatMap fun s => (answer s).compact.toList ++ ['\n'] := by
  rw [outputText]
  simp [write, disabled, answer]

theorem prettyOutputCondenses (stdin : List UInt8) :
    Condenses ((requests stdin).flatMap fun s => (answer s).pretty.toList ++ ['\n'])
      ((requests stdin).flatMap fun s => (answer s).compact.toList ++ []) :=
  .flatMap (fun s => .append (answerCondenses s) (.blank (by decide))) _

theorem compactOutputCondenses (stdin : List UInt8) :
    Condenses ((requests stdin).flatMap fun s => (answer s).compact.toList ++ ['\n'])
      ((requests stdin).flatMap fun s => (answer s).compact.toList ++ []) := by
  refine .flatMap (fun s => .append ?_ (.blank (by decide))) _
  rw [compact, String.toList_ofList]
  exact compactCondenses (answer s)

theorem layoutsAgree {on off : String → Option String}
    (enabled : (Config.ofEnvironment on).pretty = true)
    (disabled : (Config.ofEnvironment off).pretty = false) (stdin : List UInt8) :
    let long := output (.ofEnvironment on) stdin
    let short := output (.ofEnvironment off) stdin
    long.toList = (requests stdin).flatMap (fun s => (answer s).pretty.toList ++ ['\n']) ∧
    short.toList = (requests stdin).flatMap (fun s => (answer s).compact.toList ++ ['\n']) ∧
    (∀ s ∈ requests stdin, condensed (answer s).pretty.toList = (answer s).compact.toList) ∧
    condensed long.toList = condensed short.toList := by
  intro long short
  have pretty := outputPretty enabled stdin
  have compact := outputCompact disabled stdin
  refine ⟨pretty, compact, fun s _ => (answerCondenses s).text, ?_⟩
  rw [pretty, compact, (prettyOutputCondenses stdin).text, (compactOutputCondenses stdin).text]

theorem spacedIdInBothLayouts :
    let on : String → Option String := fun key => if key = "CC_UNITS_PRETTY" then some " TRUE " else none
    let off : String → Option String := fun _ => none
    let request := r#"{"id":[{},["a \" b"]],"method":"x"}"#
    (Config.ofEnvironment on).pretty = true ∧ (Config.ofEnvironment off).pretty = false ∧
    requests (encode (request ++ " \n").toList) = [request] ∧
    condensed (answer request).pretty.toList = (answer request).compact.toList := by
  intro on off request
  have enabled : (Config.ofEnvironment on).pretty = true := by decide +kernel
  have disabled : (Config.ofEnvironment off).pretty = false := rfl
  have single : requests (encode (request ++ " \n").toList) = [request] := by decide +kernel
  obtain ⟨_, _, each, _⟩ := layoutsAgree enabled disabled (encode (request ++ " \n").toList)
  exact ⟨enabled, disabled, single, each request (single ▸ List.mem_singleton_self request)⟩

end Program

end MetricUnits
