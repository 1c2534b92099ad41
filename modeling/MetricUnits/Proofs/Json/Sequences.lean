import MetricUnits.Proofs.Json.Reading
import MetricUnits.Proofs.Json.Spacing

/-! Items and fields read back one after the other, given that the reader of each takes exactly what is
written for it. White space is passed over wherever a spacing may put it. -/
namespace MetricUnits.Json.Reader

def Begins (s : List Char) : Prop := ∃ c more, s = c :: more ∧ isBlank c = false ∧ c ≠ ']'

theorem Begins.append {s : List Char} (begins : Begins s) (t : List Char) : Begins (s ++ t) := by
  obtain ⟨c, more, rfl, opens⟩ := begins
  exact ⟨c, more ++ t, rfl, opens⟩

theorem Stops.cons {c : Char} (other : c.isDigit = false ∧ c ≠ '.' ∧ c ≠ 'e' ∧ c ≠ 'E') (s : List Char) :
    Stops (c :: s) := by
  rintro _ ⟨⟩
  exact other

theorem Stops.blanks {blanks s : List Char} (blank : ∀ c ∈ blanks, isBlank c) (stop : Stops s) :
    Stops (blanks ++ s) := by
  cases blanks with
  | nil => exact stop
  | cons c blanks =>
    refine Stops.cons ?_ _
    have first := blank c List.mem_cons_self
    simp only [isBlank, Bool.or_eq_true, decide_eq_true_eq] at first
    obtain ((rfl | rfl) | rfl) | rfl := first <;> decide

theorem hasItemNext {s : List Char} (begins : Begins s) {gap : List Char} (blank : ∀ c ∈ gap, isBlank c)
    (first : Bool) : hasItem first (Spacing.comma first ++ (gap ++ s)) = .ok (true, s) := by
  obtain ⟨c, more, rfl, dark, opens⟩ := begins
  cases first with
  | true => simp [hasItem, Spacing.comma, peekTokenBlanks blank, dark, opens]
  | false =>
    have comma : isBlank ',' = false := rfl
    simp [hasItem, Spacing.comma, peekTokenBlanks blank, dark, opens, comma]

theorem hasItemEnd {gap : List Char} (blank : ∀ c ∈ gap, isBlank c) (first : Bool) (s : List Char) :
    hasItem first (gap ++ ']' :: s) = .ok (false, ']' :: s) := by
  simp [hasItem, peekTokenBlanks blank, isBlank]

variable {spacing : Spacing} {level : Nat}

theorem itemsStop (items : List Json) {s : List Char} (stop : Stops s) :
    Stops (spacing.items level false items ++ s) := by
  cases items with
  | nil => exact stop
  | cons x items => exact Stops.cons (by decide) _

theorem itemsFromReads {reader : Reader Json} {items : List Json}
    (begins : ∀ x ∈ items, Begins (spacing.chars level x))
    (reads : ∀ x ∈ items, ∀ rest, Stops rest → reader (spacing.chars level x ++ rest) = .ok (x, rest))
    {close : List Char} (blank : ∀ c ∈ close, isBlank c) (rest : List Char)
    {bound : List Char} (room : items.length < bound.length) (before : List Json) :
    itemsFrom reader bound before
      (spacing.items level before.isEmpty items ++ (close ++ ']' :: rest)) =
        .ok (before.reverse ++ items, rest) := by
  -- along the items: each takes a character off at least, and so the bound that is left is enough
  induction items generalizing bound before with
  | nil =>
    cases bound with
    | nil => simp at room
    | cons b bound => simp [itemsFrom, Spacing.items, hasItemEnd blank]
  | cons x items ih =>
    cases bound with
    | nil => simp at room
    | cons b bound =>
      obtain ⟨begin, begins⟩ := List.forall_mem_cons.mp begins
      obtain ⟨read, reads⟩ := List.forall_mem_cons.mp reads
      have stop : Stops (spacing.items level false items ++ (close ++ ']' :: rest)) :=
        itemsStop items (.blanks blank (.cons (by decide) rest))
      have next := fun behind =>
        hasItemNext (begin.append behind) (spacing.gapBlank level) before.isEmpty
      have others := ih begins reads (Nat.lt_of_succ_lt_succ room) (x :: before)
      simp only [List.isEmpty_cons] at others
      simp [itemsFrom, Spacing.items, next, read _ stop, others]

theorem itemsLength {items : List Json} (begins : ∀ x ∈ items, Begins (spacing.chars level x))
    (first : Bool) : items.length ≤ (spacing.items level first items).length := by
  induction items generalizing first with
  | nil => exact Nat.zero_le _
  | cons x items ih =>
    obtain ⟨⟨c, more, text, _⟩, begins⟩ := List.forall_mem_cons.mp begins
    have others := ih begins false
    simp only [Spacing.items, text, List.length_append, List.length_cons]
    omega

theorem itemsRead {reader : Reader Json} {items : List Json}
    (begins : ∀ x ∈ items, Begins (spacing.chars level x))
    (reads : ∀ x ∈ items, ∀ rest, Stops rest → reader (spacing.chars level x ++ rest) = .ok (x, rest))
    {close : List Char} (blank : ∀ c ∈ close, isBlank c) (rest : List Char) :
    Reader.items reader (spacing.items level true items ++ (close ++ ']' :: rest)) =
      .ok (items, rest) := by
  have room : items.length < (spacing.items level true items ++ (close ++ ']' :: rest)).length := by
    have := itemsLength begins true
    simp only [List.length_append, List.length_cons]
    omega
  have read := itemsFromReads begins reads blank rest room []
  simpa [Reader.items] using read

theorem nextKeyReads {gap : List Char} (blank : ∀ c ∈ gap, isBlank c) (first : Bool) (key : String)
    (s : List Char) :
    nextKey? first (Spacing.comma first ++ (gap ++ (stringChars key ++ s))) = .ok (some key, s) := by
  have quote : isBlank '\"' = false := rfl
  have comma : isBlank ',' = false := rfl
  cases first with
  | true =>
    simp [nextKey?, nextKey?.key, Spacing.comma, peekTokenBlanks blank, stringChars, quote,
      stringBodyReads]
  | false =>
    simp [nextKey?, nextKey?.key, Spacing.comma, peekTokenBlanks blank, stringChars, quote, comma,
      stringBodyReads]

theorem nextKeyEnd {gap : List Char} (blank : ∀ c ∈ gap, isBlank c) (first : Bool) (s : List Char) :
    nextKey? first (gap ++ '}' :: s) = .ok (none, '}' :: s) := by
  simp [nextKey?, peekTokenBlanks blank, isBlank]

inductive FieldRun {σ : Type} (field : σ → String → Reader σ) (spacing : Spacing) (level : Nat) :
    σ → List (String × Json) → σ → Prop
  | done {made} : FieldRun field spacing level made [] made
  | next {made next last key x fields} :
      (∀ rest, Stops rest →
        field made key (':' :: (spacing.behindColon ++ (spacing.chars level x ++ rest))) =
          .ok (next, rest)) →
      FieldRun field spacing level next fields last →
      FieldRun field spacing level made ((key, x) :: fields) last

variable {σ : Type} {field : σ → String → Reader σ} {fields : List (String × Json)}

theorem fieldsStop (fields : List (String × Json)) {s : List Char} (stop : Stops s) :
    Stops (spacing.fields level false fields ++ s) := by
  cases fields with
  | nil => exact stop
  | cons f fields => exact Stops.cons (by decide) _

theorem fieldsFromRun {made last : σ} (run : FieldRun field spacing level made fields last)
    (after : List (String × Json)) {close : List Char} (blank : ∀ c ∈ close, isBlank c)
    (rest : List Char) {bound : List Char} (room : fields.length < bound.length) (first : Bool) :
    ∃ b bound' first', fieldsFrom field bound first made
        (spacing.fields level first (fields ++ after) ++ (close ++ '}' :: rest)) =
      fieldsFrom field (b :: bound') first' last
        (spacing.fields level first' after ++ (close ++ '}' :: rest)) := by
  -- along the run: each field takes a character off the text, and one off the bound
  induction run generalizing bound first with
  | done =>
    cases bound with
    | nil => simp at room
    | cons b bound => exact ⟨b, bound, first, rfl⟩
  | @next made next last key x fields read run ih =>
    cases bound with
    | nil => simp at room
    | cons b bound =>
      have stop : Stops (spacing.fields level false (fields ++ after) ++ (close ++ '}' :: rest)) :=
        fieldsStop _ (.blanks blank (.cons (by decide) rest))
      have key := nextKeyReads (spacing.gapBlank level) first key
      obtain ⟨b', bound', first', others⟩ := ih (Nat.lt_of_succ_lt_succ room) false
      refine ⟨b', bound', first', ?_⟩
      simp [fieldsFrom, Spacing.fields, Spacing.field, key, read _ stop, others]

theorem fieldsLength (spacing : Spacing) (level : Nat) (fields : List (String × Json)) (first : Bool) :
    fields.length ≤ (spacing.fields level first fields).length := by
  induction fields generalizing first with
  | nil => exact Nat.zero_le _
  | cons f fields ih =>
    have others := ih false
    simp only [Spacing.fields, Spacing.field, List.length_append, List.length_cons]
    omega

theorem fieldsBehind {made last : σ} (run : FieldRun field spacing level made fields last)
    (after : List (String × Json)) {close : List Char} (blank : ∀ c ∈ close, isBlank c)
    (rest : List Char) : ∃ b bound first, Reader.fields field made
        (spacing.fields level true (fields ++ after) ++ (close ++ '}' :: rest)) =
      fieldsFrom field (b :: bound) first last
        (spacing.fields level first after ++ (close ++ '}' :: rest)) := by
  have room : fields.length <
      (spacing.fields level true (fields ++ after) ++ (close ++ '}' :: rest)).length := by
    have := fieldsLength spacing level (fields ++ after) true
    simp only [List.length_append, List.length_cons] at this ⊢
    omega
  exact fieldsFromRun run after blank rest room true

theorem fieldsRead {made last : σ} (run : FieldRun field spacing level made fields last)
    {close : List Char} (blank : ∀ c ∈ close, isBlank c) (rest : List Char) :
    Reader.fields field made (spacing.fields level true fields ++ (close ++ '}' :: rest)) =
      .ok (last, rest) := by
  obtain ⟨b, bound, first, behind⟩ := fieldsBehind run [] blank rest
  rw [List.append_nil] at behind
  rw [behind]
  simp [fieldsFrom, Spacing.fields, nextKeyEnd blank]

end MetricUnits.Json.Reader
