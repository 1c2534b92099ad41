import Mathlib.Data.List.TakeWhile
import MetricUnits.Program

/-! Text as bytes, and the run as a walk over lines. A byte below 128 is always a character of its own, so
line ends are never part of another one. A stream is taken apart at its first line end; what is written for
it is the reply to the line before that end, and then what is written for the rest. -/
namespace MetricUnits

namespace Text

theorem trimEmptyIff (s : List Char) : trim s = [] ↔ ∀ c ∈ s, isBlank c := by
  have start (t : List Char) : trimStart t = [] ↔ ∀ c ∈ t, isBlank c := List.dropWhile_eq_nil_iff
  have finish (t : List Char) : trimEnd t = [] ↔ ∀ c ∈ t, isBlank c := by
    rw [trimEnd, List.reverse_eq_nil_iff, start]
    simp only [List.mem_reverse]
  constructor
  · intro empty
    rw [← start]
    refine Classical.byContradiction fun (some : s.dropWhile isBlank ≠ []) => ?_
    -- a text that is left begins with a character that is not blank
    have head := List.head_dropWhile_not isBlank some
    have blank := (finish (trimStart s)).mp empty _ (List.head_mem some)
    rw [blank] at head
    contradiction
  · intro blank
    have none := (start s).mpr blank
    rw [trim, none]
    rfl

theorem trimReturn (s : List Char) : trim (s ++ ['\r']) = trim s := by
  have behind (t : List Char) : trimEnd (t ++ ['\r']) = trimEnd t := by
    simp only [trimEnd, trimStart, List.reverse_append, List.reverse_cons, List.reverse_nil,
      List.nil_append, List.cons_append]
    rfl
  unfold trim trimStart
  rw [List.dropWhile_append]
  split
  · rename_i none
    rw [List.isEmpty_iff.mp none]
    rfl
  · exact behind _

end Text

namespace Program

def encode (s : List Char) : List UInt8 := s.flatMap String.utf8EncodeChar

theorem encodeAppend (s t : List Char) : encode (s ++ t) = encode s ++ encode t := List.flatMap_append

theorem encodeBytes (s : String) : s.toByteArray = ⟨(encode s.toList).toArray⟩ := by
  rw [← String.utf8Encode_toList]
  exact ByteArray.ext List.data_toByteArray

theorem decodeIff {line : List UInt8} {s : String} :
    decode? line = some s ↔ line = encode s.toList := by
  have bytes : (⟨line.toArray⟩ : ByteArray) = s.toByteArray ↔ line = encode s.toList := by
    rw [encodeBytes]
    simp [ByteArray.mk.injEq]
  rw [← bytes]
  unfold decode? String.fromUTF8?
  split
  · rw [Option.some.injEq, ← String.toByteArray_inj]
    rfl
  · rename_i invalid
    refine iff_of_false (by simp) ?_
    intro same
    exact invalid (same ▸ s.isValidUTF8)

theorem decodeEncode (s : List Char) : decode? (encode s) = some (String.ofList s) := by
  rw [decodeIff, String.toList_ofList]

theorem encodeAscii {c : Char} (ascii : c.toNat < 128) :
    String.utf8EncodeChar c = [UInt8.ofNat c.toNat] := by
  unfold String.utf8EncodeChar
  exact if_pos (Nat.le_of_lt_succ ascii)

theorem encodeWide {c : Char} (wide : 128 ≤ c.toNat) :
    ∀ b ∈ String.utf8EncodeChar c, 128 ≤ b.toNat := by
  unfold String.utf8EncodeChar
  simp only
  rw [if_neg (show ¬ c.val.toNat ≤ 127 from Nat.not_le.mpr wide)]
  split
  · simp
    omega
  · split
    · simp
      omega
    · simp
      omega

theorem encodeLeast {s : List Char} {n : Nat} (ascii : n ≤ 128) (least : ∀ c ∈ s, n ≤ c.toNat) :
    ∀ b ∈ encode s, n ≤ b.toNat := by
  intro b mem
  obtain ⟨c, char, byte⟩ := List.mem_flatMap.mp mem
  by_cases wide : 128 ≤ c.toNat
  · exact Nat.le_trans ascii (encodeWide wide b byte)
  · rw [encodeAscii (Nat.lt_of_not_le wide), List.mem_singleton] at byte
    have bound := least c char
    rw [byte, UInt8.toNat_ofNat']
    omega

theorem encodeLast {c : Char} {init : List UInt8} {b : UInt8}
    (ends : String.utf8EncodeChar c = init ++ [b]) (low : b.toNat < 128) : init = [] := by
  by_cases wide : 128 ≤ c.toNat
  · have high := encodeWide wide b (by simp [ends])
    omega
  · rw [encodeAscii (Nat.lt_of_not_le wide)] at ends
    change [] ++ _ = init ++ [b] at ends
    exact (List.append_inj' ends rfl).1.symm

theorem encodeEnds {t : List Char} {line : List UInt8} {b : UInt8} (ends : encode t = line ++ [b])
    (low : b.toNat < 128) : ∃ s, line = encode s := by
  rcases List.eq_nil_or_concat t with rfl | ⟨s, c, rfl⟩
  · simp [encode] at ends
  · rw [List.concat_eq_append, encodeAppend] at ends
    have single : encode [c] = String.utf8EncodeChar c := List.flatMap_singleton ..
    rcases List.eq_nil_or_concat (String.utf8EncodeChar c) with none | ⟨init, d, last⟩
    · exact absurd none String.utf8EncodeChar_ne_nil
    · rw [List.concat_eq_append] at last
      rw [single, last, ← List.append_assoc] at ends
      obtain ⟨before, same⟩ := List.append_inj' ends rfl
      obtain rfl := List.singleton_inj.mp same
      refine ⟨s, ?_⟩
      rw [← before, encodeLast last low, List.append_nil]

theorem decodeReturn (line : List UInt8) :
    decode? (line ++ [13]) = (decode? line).map (· ++ "\r") := by
  have return' : encode ['\r'] = [13] := by decide
  cases decoded : decode? line with
  | some s =>
    rw [Option.map_some, decodeIff, decodeIff.mp decoded, String.toList_append, encodeAppend, ← return']
    rfl
  | none =>
    rw [Option.map_none, Option.eq_none_iff_forall_ne_some]
    intro t text
    obtain ⟨s, whole⟩ := encodeEnds (decodeIff.mp text).symm (by decide)
    rw [whole, decodeEncode] at decoded
    contradiction

def Closed (stream : List UInt8) : Prop := ∀ b ∈ stream.getLast?, b = 10

instance (stream : List UInt8) : Decidable (Closed stream) :=
  Option.decidableForallMem stream.getLast?

theorem closedLast {line : List UInt8} (closed : Closed line) (single : 10 ∉ line) : line = [] := by
  cases last : line.getLast? with
  | none => exact List.getLast?_eq_none_iff.mp last
  | some b =>
    have same := closed b last
    exact absurd (List.mem_of_getLast? (same ▸ last)) single

theorem closedRest {line rest : List UInt8} (closed : Closed (line ++ 10 :: rest)) : Closed rest := by
  intro b last
  refine closed b ?_
  rw [List.getLast?_append, List.getLast?_cons, last]
  rfl

theorem byLines {motive : List UInt8 → Prop} (last : ∀ line, 10 ∉ line → motive line)
    (line : ∀ line rest, 10 ∉ line → motive rest → motive (line ++ 10 :: rest)) (stream : List UInt8) :
    motive stream := by
  by_cases ended : 10 ∈ stream
  · obtain ⟨first, rest, parts, single⟩ := List.eq_append_cons_of_mem ended
    rw [parts]
    exact line first rest single (byLines last line rest)
  · exact last stream ended
termination_by stream.length
decreasing_by simp [parts]; omega

theorem linesFromLine {line : List UInt8} (single : 10 ∉ line) (before rest : List UInt8) :
    linesFrom before (line ++ 10 :: rest) = (before.reverse ++ line) :: lines rest := by
  induction line generalizing before with
  | nil => simp [linesFrom, lines]
  | cons b line ih =>
    obtain ⟨other, single⟩ := not_or.mp (List.mem_cons.not.mp single)
    rw [List.cons_append, linesFrom, if_neg (Ne.symm other), ih single]
    simp

theorem linesLine {line : List UInt8} (single : 10 ∉ line) (rest : List UInt8) :
    lines (line ++ 10 :: rest) = line :: lines rest := linesFromLine single [] rest

theorem linesFromLast {line : List UInt8} (single : 10 ∉ line) (before : List UInt8) :
    linesFrom before line = if before = [] ∧ line = [] then [] else [before.reverse ++ line] := by
  induction line generalizing before with
  | nil => cases before <;> simp [linesFrom]
  | cons b line ih =>
    obtain ⟨other, single⟩ := not_or.mp (List.mem_cons.not.mp single)
    rw [linesFrom, if_neg (Ne.symm other), ih single]
    simp

theorem linesLast {line : List UInt8} (single : 10 ∉ line) :
    lines line = if line = [] then [] else [line] := by
  rw [lines, linesFromLast single]
  simp

def output (config : Config) (stdin : List UInt8) : String := (run config stdin).stdout

def Reply.before (rest : String) : Reply → String
  | text s => s ++ rest
  | nothing => rest
  | stop => ""

theorem repliesCons (config : Config) (line : List UInt8) (rest : List (List UInt8)) :
    String.join (replies config (line :: rest)) =
      (reply config line).before (String.join (replies config rest)) := by
  rw [replies]
  cases reply config line with
  | text s => exact String.join_cons
  | nothing => rfl
  | stop => rfl

variable (config : Config)

theorem outputLine {line : List UInt8} (single : 10 ∉ line) (rest : List UInt8) :
    output config (line ++ 10 :: rest) = (reply config line).before (output config rest) := by
  show String.join (replies config (lines _)) = _
  rw [linesLine single, repliesCons]
  rfl

theorem outputLast {line : List UInt8} (single : 10 ∉ line) :
    output config line = (reply config line).before "" := by
  show String.join (replies config (lines _)) = _
  rw [linesLast single]
  split
  · rename_i empty
    rw [empty]
    rfl
  · exact repliesCons config line []

def IsText (line : List UInt8) : Prop := decode? line ≠ none

instance (line : List UInt8) : Decidable (IsText line) := inferInstanceAs (Decidable (_ ≠ _))

theorem replyText {line : List UInt8} (text : IsText line) : reply config line ≠ .stop := by
  unfold reply
  cases decoded : decode? line with
  | none => exact absurd decoded text
  | some s =>
    dsimp only
    split
    · exact Reply.noConfusion
    · exact Reply.noConfusion

theorem replyNoText {line : List UInt8} (bytes : ¬ IsText line) : reply config line = .stop := by
  unfold reply
  rw [Classical.not_not.mp bytes]

def Blank (line : List UInt8) : Prop := ∃ s, decode? line = some s ∧ ∀ c ∈ s.toList, Text.isBlank c

theorem replyBlank {line : List UInt8} (blank : Blank line) : reply config line = .nothing := by
  obtain ⟨s, decoded, white⟩ := blank
  unfold reply
  rw [decoded]
  simp only [(Text.trimEmptyIff s.toList).mpr white]
  rfl

theorem replyReturn (line : List UInt8) : reply config (line ++ [13]) = reply config line := by
  unfold reply
  rw [decodeReturn]
  cases decode? line with
  | none => rfl
  | some s =>
    have trimmed : Text.trim (s ++ "\r").toList = Text.trim s.toList := by
      rw [String.toList_append]
      exact Text.trimReturn s.toList
    simp only [Option.map_some, trimmed]

end Program

end MetricUnits
