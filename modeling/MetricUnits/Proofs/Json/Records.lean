import MetricUnits.Proofs.Json.Values

/-! Records read from objects. Fields are read in the order of the text. Either all of them are read, and the
record is made of them, or the first one that is refused ends it, whatever is behind. -/
namespace MetricUnits.Json

def Spacing.text (spacing : Spacing) (j : Json) : String := String.ofList (spacing.chars 0 j)

theorem Spacing.noneText (j : Json) : Spacing.none.text j = j.compact :=
  congrArg String.ofList (compactSpacing 0 j).symm

theorem Spacing.linesText (j : Json) : Spacing.lines.text j = j.pretty :=
  congrArg String.ofList (prettySpacing 0 j).symm

namespace Reader
variable {α σ : Type} {spacing : Spacing} {level : Nat}

theorem tokenBlanks {blanks : List Char} (blank : ∀ c ∈ blanks, isBlank c)
    (next : Option Char → Reader α) (s : List Char) :
    (peekToken >>= next) (blanks ++ s) = (peekToken >>= next) s := by
  rw [bindApply, bindApply, peekTokenBlanks blank]

theorem spacedString (spacing : Spacing) (s : String) (rest : List Char) :
    string (spacing.behindColon ++ (stringChars s ++ rest)) = .ok (s, rest) :=
  (tokenBlanks spacing.colonBlank _ _).trans (stringReads s rest)

/- A text is not taken for an absent one, as it begins with a quote. -/
theorem spacedOptional (spacing : Spacing) (s : String) (rest : List Char) :
    optional string (spacing.behindColon ++ (stringChars s ++ rest)) = .ok (some s, rest) := by
  refine (tokenBlanks spacing.colonBlank _ _).trans ?_
  have read := stringReads s rest
  simp only [stringChars, List.cons_append, List.append_assoc, List.nil_append] at read ⊢
  simp [read, isBlank]

theorem spacedVariant (spacing : Spacing) {known : List (String × α)} {name : String} {x : α}
    (found : known.lookup name = some x) (depth : Nat) (rest : List Char) :
    plainVariant known depth (spacing.behindColon ++ (stringChars name ++ rest)) = .ok (x, rest) := by
  refine (tokenBlanks spacing.colonBlank _ _).trans ?_
  simp [stringChars, stringBodyReads, variantOfName, found, isBlank]

theorem spacedNumber (spacing : Spacing) {n : Number} (readable : n.Readable) (expected : String)
    (take : Number → Except Fault α) {rest : List Char} (stop : Stops rest) :
    numberAs expected take (spacing.behindColon ++ (numberChars n ++ rest)) =
      (take n).map fun x => (x, rest) := by
  refine (tokenBlanks spacing.colonBlank _ _).trans ?_
  have read := numberReads readable stop
  obtain ⟨c, more, text, digit⟩ := numberBegins readable
  obtain ⟨dark, _⟩ := digitDark digit
  rw [text, List.cons_append] at read ⊢
  cases taken : take n with
  | ok x => simp [dark, digit, read, taken, Except.map]
  | error e => simp [dark, digit, read, taken, Except.map, fail]

theorem onceFieldReads (key : String) {reader : Reader α} {x : α} {s rest : List Char}
    (read : reader s = .ok (x, rest)) : onceField key none reader (':' :: s) = .ok (some x, rest) := by
  simp [onceField, colonReads, read]

variable {field : σ → String → Reader σ} {before after : List (String × Json)} {key : String} {x : Json}

theorem fieldsFail {made last : σ} {e : Fault} (run : FieldRun field spacing level made before last)
    (fails : ∀ rest, Stops rest →
      field last key (':' :: (spacing.behindColon ++ (spacing.chars level x ++ rest))) = .error e)
    {close : List Char} (blank : ∀ c ∈ close, isBlank c) (rest : List Char) :
    Reader.fields field made
      (spacing.fields level true (before ++ (key, x) :: after) ++ (close ++ '}' :: rest)) =
        .error e := by
  obtain ⟨b, bound, first, behind⟩ := fieldsBehind run ((key, x) :: after) blank rest
  have stop : Stops (spacing.fields level false after ++ (close ++ '}' :: rest)) :=
    fieldsStop after (.blanks blank (.cons (by decide) rest))
  have key := nextKeyReads (spacing.gapBlank level) first key
  rw [behind]
  simp [fieldsFrom, Spacing.fields, Spacing.field, key, fails _ stop, Except.bind]

end Reader

section Records
open Reader
variable {α σ : Type} {spacing : Spacing} {expected : String} {layouts : Layouts α}
  {field : σ → String → Reader σ} {start last : σ} {finish : σ → Reader α}

theorem wholeReads {reader : Reader α} {text : String} {x : α}
    (read : reader text.toList = .ok (x, [])) : readWhole reader text = .ok x := by
  rw [readWhole, read]
  rfl

theorem wholeFails {reader : Reader α} {text : String} {e : Fault}
    (failed : reader text.toList = .error e) : readWhole reader text = .error e := by
  rw [readWhole, failed]

theorem Reader.recordReads (expected : String) (layouts : Layouts α) (depth : Nat) (s : List Char) :
    record expected layouts (depth + 1) ('{' :: s) = layouts.map depth s := by
  simp [record, expecting, isBlank]

theorem recordText (map : layouts.map (nestingLimit - 1) = fields field start >>= finish)
    (entries : List (String × Json)) :
    record expected layouts nestingLimit (spacing.text (.object entries)).toList =
      (fields field start >>= finish) (spacing.fields 1 true entries ++
        (spacing.closing 0 entries.isEmpty ++ '}' :: [])) := by
  rw [Spacing.text, String.toList_ofList, ← map]
  exact recordReads expected layouts (nestingLimit - 1) _

theorem recordAccepted (map : layouts.map (nestingLimit - 1) = fields field start >>= finish)
    {entries : List (String × Json)} (run : FieldRun field spacing 1 start entries last) {x : α}
    (made : finish last [] = .ok (x, [])) :
    readWhole (record expected layouts nestingLimit) (spacing.text (.object entries)) = .ok x := by
  refine wholeReads ((recordText map entries).trans ?_)
  rw [bindApply, fieldsRead run (spacing.closingBlank 0 _)]
  exact made

theorem recordRefused (map : layouts.map (nestingLimit - 1) = fields field start >>= finish)
    {before : List (String × Json)} (run : FieldRun field spacing 1 start before last)
    {key : String} {y : Json} {e : Fault}
    (fails : ∀ rest, Stops rest →
      field last key (':' :: (spacing.behindColon ++ (spacing.chars 1 y ++ rest))) = .error e)
    (after : List (String × Json)) :
    readWhole (record expected layouts nestingLimit)
      (spacing.text (.object (before ++ (key, y) :: after))) = .error e := by
  refine wholeFails ((recordText map _).trans ?_)
  rw [bindApply, fieldsFail run fails (spacing.closingBlank 0 _)]
  rfl

end Records
end MetricUnits.Json
