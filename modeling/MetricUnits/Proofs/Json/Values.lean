import MetricUnits.Proofs.Json.Numbers
import MetricUnits.Proofs.Json.Sequences

/-! Values read back from their text, with white space or without, as long as they are not nested too
deep and hold no number that is read as another one. -/
namespace MetricUnits.Json

/-- Values within a depth of nesting, with numbers of one kind, and fields ordered by name. -/
inductive Within (numbers : Number → Prop) : (depth : Nat) → Json → Prop
  | null {d} : Within numbers d .null
  | bool {d} (b : Bool) : Within numbers d (.bool b)
  | number {d n} : numbers n → Within numbers d (.number n)
  | string {d} (s : String) : Within numbers d (.string s)
  | array {d items} : (∀ x ∈ items, Within numbers d x) → Within numbers (d + 1) (.array items)
  | object {d fields} : fields.Pairwise (fun f g => f.1 < g.1) →
      (∀ f ∈ fields, Within numbers d f.2) → Within numbers (d + 1) (.object fields)

theorem Within.mono {numbers more : Number → Prop} (kind : ∀ n, numbers n → more n) {d e : Nat}
    {j : Json} (within : Within numbers d j) (deep : d ≤ e) : Within more e j := by
  induction within generalizing e with
  | null => exact .null
  | bool b => exact .bool b
  | number holds => exact .number (kind _ holds)
  | string s => exact .string s
  | array _ ih =>
    obtain ⟨e, rfl⟩ : ∃ k, e = k + 1 := ⟨e - 1, by omega⟩
    exact .array fun x mem => ih x mem (Nat.le_of_succ_le_succ deep)
  | object sorted _ ih =>
    obtain ⟨e, rfl⟩ : ∃ k, e = k + 1 := ⟨e - 1, by omega⟩
    exact .object sorted fun f mem => ih f mem (Nat.le_of_succ_le_succ deep)

namespace Reader

theorem digitDark {c : Char} (digit : c = '-' ∨ c.isDigit = true) :
    isBlank c = false ∧ c ≠ ']' ∧ c ≠ 'n' ∧ c ≠ 't' ∧ c ≠ 'f' := by
  obtain rfl | digit := digit
  · decide
  · refine ⟨Bool.eq_false_iff.mpr fun blank => ?_, ?_, ?_, ?_, ?_⟩
    · simp only [isBlank, Bool.or_eq_true, decide_eq_true_eq] at blank
      obtain ((rfl | rfl) | rfl) | rfl := blank <;> exact absurd digit (by decide)
    all_goals
      rintro rfl
      exact absurd digit (by decide)

end Reader

theorem Spacing.charsFirst (spacing : Spacing) (level : Nat) {d : Nat} {j : Json}
    (within : Within Number.Readable d j) : ∃ c more, spacing.chars level j = c :: more ∧
      Reader.isBlank c = false ∧ c ≠ ']' ∧ (c = 'n' → j = .null) := by
  cases within with
  | null => exact ⟨_, _, rfl, rfl, by decide, fun _ => rfl⟩
  | bool b => cases b <;> exact ⟨_, _, rfl, rfl, by decide, nofun⟩
  | number readable =>
    obtain ⟨c, more, text, digit⟩ := numberBegins readable
    obtain ⟨dark, opens, other, _⟩ := Reader.digitDark digit
    exact ⟨c, more, text, dark, opens, fun null => absurd null other⟩
  | string s => exact ⟨_, _, rfl, rfl, by decide, nofun⟩
  | array _ => exact ⟨_, _, rfl, rfl, by decide, nofun⟩
  | object _ _ => exact ⟨_, _, rfl, rfl, by decide, nofun⟩

theorem Spacing.charsBegin (spacing : Spacing) (level : Nat) {d : Nat} {j : Json}
    (within : Within Number.Readable d j) : Reader.Begins (spacing.chars level j) := by
  obtain ⟨c, more, text, dark, opens, _⟩ := spacing.charsFirst level within
  exact ⟨c, more, text, dark, opens⟩

namespace Reader

theorem valueNested (depth : Nat) : ∃ nested, value depth = valueWith nested := by
  cases depth with
  | zero => exact ⟨_, rfl⟩
  | succ depth => exact ⟨_, rfl⟩

theorem valueBlanks {blanks : List Char} (blank : ∀ c ∈ blanks, isBlank c) (depth : Nat)
    (s : List Char) : value depth (blanks ++ s) = value depth s := by
  obtain ⟨nested, same⟩ := valueNested depth
  simp only [same, valueWith, bindApply, peekTokenBlanks blank]

theorem nullReads (depth : Nat) (rest : List Char) :
    value depth ("null".toList ++ rest) = .ok (.null, rest) := by
  obtain ⟨nested, same⟩ := valueNested depth
  simp [same, valueWith, word, isBlank]

theorem trueReads (depth : Nat) (rest : List Char) :
    value depth ("true".toList ++ rest) = .ok (.bool true, rest) := by
  obtain ⟨nested, same⟩ := valueNested depth
  simp [same, valueWith, word, isBlank]

theorem falseReads (depth : Nat) (rest : List Char) :
    value depth ("false".toList ++ rest) = .ok (.bool false, rest) := by
  obtain ⟨nested, same⟩ := valueNested depth
  simp [same, valueWith, word, isBlank]

theorem stringValueReads (depth : Nat) (s : String) (rest : List Char) :
    value depth (stringChars s ++ rest) = .ok (.string s, rest) := by
  obtain ⟨nested, same⟩ := valueNested depth
  simp [same, valueWith, stringChars, stringBodyReads, isBlank]

theorem numberValueReads (depth : Nat) {n : Number} (readable : n.Readable) {rest : List Char}
    (stop : Stops rest) : value depth (numberChars n ++ rest) = .ok (.number n, rest) := by
  obtain ⟨nested, same⟩ := valueNested depth
  have number := numberReads readable stop
  obtain ⟨c, more, text, digit⟩ := numberBegins readable
  obtain ⟨dark, _, notNull, notTrue, notFalse⟩ := digitDark digit
  rw [text, List.cons_append] at number ⊢
  simp [same, valueWith, dark, notNull, notTrue, notFalse, digit, number]

end Reader

def ordered (fields : List (String × Json)) : List (String × Json) :=
  fields.foldl (fun made f => insertField f.1 f.2 made) []

theorem insertLast {key : String} {x : Json} {made : List (String × Json)}
    (last : ∀ f ∈ made, f.1 < key) : insertField key x made = made ++ [(key, x)] := by
  induction made with
  | nil => rfl
  | cons f made ih =>
    obtain ⟨first, last⟩ := List.forall_mem_cons.mp last
    rw [insertField, if_neg (String.lt_asymm first), if_neg (String.ne_of_lt first).symm, ih last]
    rfl

theorem foldSorted {made fields : List (String × Json)}
    (sorted : (made ++ fields).Pairwise (fun f g => f.1 < g.1)) :
    fields.foldl (fun made f => insertField f.1 f.2 made) made = made ++ fields := by
  induction fields generalizing made with
  | nil => simp
  | cons f fields ih =>
    have last : ∀ g ∈ made, g.1 < f.1 :=
      fun g mem => (List.pairwise_append.mp sorted).2.2 g mem f List.mem_cons_self
    rw [List.append_cons] at sorted
    rw [List.foldl_cons, insertLast last, ih sorted, List.append_assoc]
    rfl

theorem orderedSorted {fields : List (String × Json)}
    (sorted : fields.Pairwise (fun f g => f.1 < g.1)) : ordered fields = fields := foldSorted sorted

namespace Reader
variable {spacing : Spacing} {level depth : Nat} {fields : List (String × Json)}

theorem freeRun (reads : ∀ f ∈ fields, ∀ rest, Stops rest →
      value depth (spacing.chars level f.2 ++ rest) = .ok (f.2, rest)) (made : List (String × Json)) :
    FieldRun (freeField (value depth)) spacing level made fields
      (fields.foldl (fun made f => insertField f.1 f.2 made) made) := by
  induction fields generalizing made with
  | nil => exact .done
  | cons f fields ih =>
    obtain ⟨read, reads⟩ := List.forall_mem_cons.mp reads
    refine .next (fun rest stop => ?_) (ih reads _)
    simp [freeField, colonReads, valueBlanks spacing.colonBlank, read rest stop]

theorem objectReads (reads : ∀ f ∈ fields, ∀ rest, Stops rest →
      value depth (spacing.chars (level + 1) f.2 ++ rest) = .ok (f.2, rest)) (rest : List Char) :
    value (depth + 1) (spacing.chars level (.object fields) ++ rest) =
      .ok (.object (ordered fields), rest) := by
  have read := fieldsRead (freeRun reads []) (spacing.closingBlank level fields.isEmpty) rest
  simp [value, valueWith, Spacing.chars, isBlank, read, ordered]

theorem arrayReads {items : List Json} (begins : ∀ x ∈ items, Begins (spacing.chars (level + 1) x))
    (reads : ∀ x ∈ items, ∀ rest, Stops rest →
      value depth (spacing.chars (level + 1) x ++ rest) = .ok (x, rest)) (rest : List Char) :
    value (depth + 1) (spacing.chars level (.array items) ++ rest) = .ok (.array items, rest) := by
  have read := itemsRead begins reads (spacing.closingBlank level items.isEmpty) rest
  simp [value, valueWith, Spacing.chars, isBlank, read]

theorem valueReads {j : Json} (within : Within Number.Readable depth j) (level : Nat) {rest : List Char}
    (stop : Stops rest) : value depth (spacing.chars level j ++ rest) = .ok (j, rest) := by
  induction within generalizing level rest with
  | null => exact nullReads _ rest
  | bool b =>
    cases b with
    | true => exact trueReads _ rest
    | false => exact falseReads _ rest
  | number readable => exact numberValueReads _ readable stop
  | string s => exact stringValueReads _ s rest
  | array inner ih =>
    exact arrayReads (fun x mem => spacing.charsBegin (level + 1) (inner x mem))
      (fun x mem rest stop => ih x mem (level + 1) stop) rest
  | object sorted inner ih =>
    rw [objectReads (fun f mem rest stop => ih f mem (level + 1) stop), orderedSorted sorted]

end Reader
end MetricUnits.Json
