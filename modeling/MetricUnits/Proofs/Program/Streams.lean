import MetricUnits.Proofs.Program.Lines

/-! What is written for a stream, put together from what is written for its parts. No line changes the
answer to another one; only a line that is no text ends the run. -/
namespace MetricUnits.Program
variable (config : Config)

theorem Reply.beforeAppend {reply : Reply} (goesOn : reply ≠ .stop) (s t : String) :
    reply.before (s ++ t) = reply.before s ++ t := by
  cases reply with
  | text r => exact (String.append_assoc).symm
  | nothing => rfl
  | stop => exact absurd rfl goesOn

theorem outputAppend {a : List UInt8} (closed : Closed a) (texts : ∀ line ∈ lines a, IsText line)
    (b : List UInt8) : output config (a ++ b) = output config a ++ output config b := by
  -- along the lines of the first stream, which is closed and so does not run on into the second
  induction a using byLines with
  | last line single =>
    obtain rfl := closedLast closed single
    exact String.empty_append.symm
  | line line rest single ih =>
    rw [linesLine single] at texts
    obtain ⟨text, texts⟩ := List.forall_mem_cons.mp texts
    have behind := ih (closedRest closed) texts
    rw [List.append_assoc, List.cons_append, outputLine config single, outputLine config single, behind]
    exact Reply.beforeAppend (replyText config text) _ _

inductive EndedLine (line : List UInt8) : List UInt8 → Prop
  | here (rest : List UInt8) (single : 10 ∉ line) : EndedLine line (line ++ 10 :: rest)
  | later {first rest : List UInt8} (single : 10 ∉ first) (found : EndedLine line rest) :
      EndedLine line (first ++ 10 :: rest)

theorem outputEnded {a line : List UInt8} (found : EndedLine line a) (bytes : ¬ IsText line)
    (b : List UInt8) : output config (a ++ b) = output config a := by
  induction found with
  | here rest single =>
    rw [List.append_assoc, List.cons_append, outputLine config single, outputLine config single,
      replyNoText config bytes]
    rfl
  | later single found ih =>
    rw [List.append_assoc, List.cons_append, outputLine config single, outputLine config single, ih]

inductive Padded : List UInt8 → List UInt8 → Prop
  | same (stream : List UInt8) : Padded stream stream
  | kept {line s t : List UInt8} (single : 10 ∉ line) (rest : Padded s t) :
      Padded (line ++ 10 :: s) (line ++ 10 :: t)
  | added {line s t : List UInt8} (single : 10 ∉ line) (blank : Blank line) (rest : Padded s t) :
      Padded s (line ++ 10 :: t)
  | last {line : List UInt8} (single : 10 ∉ line) (blank : Blank line) : Padded [] line

theorem outputPadded {s t : List UInt8} (padded : Padded s t) : output config t = output config s := by
  induction padded with
  | same stream => rfl
  | kept single rest ih => rw [outputLine config single, outputLine config single, ih]
  | added single blank rest ih =>
    rw [outputLine config single, replyBlank config blank]
    exact ih
  | last single blank =>
    rw [outputLast config single, replyBlank config blank]
    rfl

def withReturns (stream : List UInt8) : List UInt8 :=
  stream.flatMap fun b => if b = 10 then [13, 10] else [b]

theorem withReturnsSingle {line : List UInt8} (single : 10 ∉ line) : withReturns line = line := by
  induction line with
  | nil => rfl
  | cons b line ih =>
    obtain ⟨other, single⟩ := not_or.mp (List.mem_cons.not.mp single)
    show (if b = 10 then [13, 10] else [b]) ++ withReturns line = _
    rw [if_neg (Ne.symm other), ih single]
    rfl

theorem withReturnsLine {line : List UInt8} (single : 10 ∉ line) (rest : List UInt8) :
    withReturns (line ++ 10 :: rest) = (line ++ [13]) ++ 10 :: withReturns rest := by
  have parts : withReturns (line ++ 10 :: rest) = withReturns line ++ withReturns (10 :: rest) :=
    List.flatMap_append
  rw [parts, withReturnsSingle single, List.append_assoc]
  rfl

theorem outputReturns (stream : List UInt8) :
    output config (withReturns stream) = output config stream := by
  induction stream using byLines with
  | last line single => rw [withReturnsSingle single]
  | line line rest single ih =>
    have still : 10 ∉ line ++ [13] := by simp [single]
    rw [withReturnsLine single, outputLine config still, outputLine config single, replyReturn, ih]

theorem streamLaw (config : Config) :
    (∀ a, Closed a → (∀ line ∈ lines a, IsText line) →
      ∀ b, output config (a ++ b) = output config a ++ output config b) ∧
    (∀ a line, EndedLine line a → ¬ IsText line → ∀ b, output config (a ++ b) = output config a) ∧
    (∀ stream padded, Padded stream padded → output config padded = output config stream) ∧
    ∀ stream, output config (withReturns stream) = output config stream :=
  ⟨fun _ closed texts => outputAppend config closed texts,
    fun _ _ found bytes => outputEnded config found bytes,
    fun _ _ padded => outputPadded config padded,
    outputReturns config⟩

/- Behind a line that is no request stands one whose id holds a line end and a quote. -/
theorem streamsAroundBrokenLine :
    let request := r#"{"id":"a\n\"b","method":"x"}"#
    let stream := encode (r"{" ++ "\n" ++ request ++ "\n").toList
    (Closed stream ∧ ∀ line ∈ lines stream, IsText line) ∧
    (∀ b, output .initial (stream ++ b) = output .initial stream ++ output .initial b) ∧
    (EndedLine [255] (encode (request ++ "\n").toList ++ [255, 10]) ∧ ¬ IsText [255]) ∧
    (∀ b, output .initial (encode (request ++ "\n").toList ++ [255, 10] ++ b) =
      output .initial (encode (request ++ "\n").toList ++ [255, 10])) ∧
    Padded stream ([32] ++ 10 :: stream) ∧ output .initial ([32] ++ 10 :: stream) = output .initial stream ∧
    output .initial (withReturns stream) = output .initial stream := by
  intro request stream
  obtain ⟨append, ended, padded, returns⟩ := streamLaw .initial
  have closed : Closed stream := by decide +kernel
  have texts : ∀ line ∈ lines stream, IsText line := by decide +kernel
  have first : encode (request ++ "\n").toList = encode request.toList ++ [10] := by decide +kernel
  have found : EndedLine [255] (encode (request ++ "\n").toList ++ [255, 10]) := by
    rw [first, List.append_assoc]
    exact .later (by decide +kernel) (.here [] (by decide))
  have bytes : ¬ IsText [255] := by decide +kernel
  have spaced : Padded stream ([32] ++ 10 :: stream) :=
    .added (by decide) ⟨" ", by decide +kernel, List.forall_mem_singleton.mpr rfl⟩ (.same _)
  exact ⟨⟨closed, texts⟩, append _ closed texts, ⟨found, bytes⟩, ended _ _ found bytes, spaced,
    padded _ _ spaced, returns stream⟩

end MetricUnits.Program
