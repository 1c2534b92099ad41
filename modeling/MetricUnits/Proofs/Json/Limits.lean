import MetricUnits.Proofs.Json.Values

/-! The limits of what is read. Every value that is taken from a text is within the depth of its
reader, its numbers can be written and read again, and its fields are ordered by name. These are the
values that are read back from their text, and so reading never makes any other. -/
namespace MetricUnits.Json

namespace Reader
variable {α β : Type}

def Ensures (good : α → Prop) (reader : Reader α) : Prop :=
  ∀ s x rest, reader s = .ok (x, rest) → good x

namespace Ensures
variable {good : α → Prop} {better : β → Prop}

theorem bind {reader : Reader α} {g : α → Reader β} (first : Ensures good reader)
    (next : ∀ x, good x → Ensures better (g x)) : Ensures better (reader >>= g) := by
  intro s y rest ok
  rw [bindApply] at ok
  cases taken : reader s with
  | error e =>
    rw [taken] at ok
    contradiction
  | ok made =>
    obtain ⟨x, t⟩ := made
    rw [taken] at ok
    exact next x (first s x t taken) t y rest ok

theorem pure {x : α} (holds : good x) : Ensures good (pure x) := by
  rintro s _ rest ⟨⟩
  exact holds

theorem fail (e : Fault) : Ensures good (fail e) := nofun

theorem anyway (reader : Reader α) : Ensures (fun _ => True) reader := fun _ _ _ _ => trivial

end Ensures

theorem wholeEnsures {good : α → Prop} {reader : Reader α} (ensures : Ensures good reader)
    {text : String} {x : α} (read : readWhole reader text = .ok x) : good x := by
  unfold readWhole at read
  split at read
  · contradiction
  · rename_i made rest taken
    split at read
    · cases read
      exact ensures _ _ _ taken
    · contradiction

theorem partsReadable {negative : Bool} {whole : List Char} {fraction : Option (List Char)}
    {exponent : Option Int} {n : Number}
    (made : numberOfParts? negative whole fraction exponent = some n) : n.Readable := by
  unfold numberOfParts? at made
  dsimp only at made
  have real {x : Double} (made : (if x.isFinite then some (Number.double x) else none) = some n) :
      n.Readable := by
    split at made
    · rename_i finite
      cases made
      exact finite
    · contradiction
  obtain ⟨signed, sign⟩ : ∃ i : Int,
      (if negative then -(natOfDigits whole : Int) else natOfDigits whole) = i := ⟨_, rfl⟩
  rw [sign] at made
  split at made
  · split at made
    · rename_i fits
      cases made
      exact fits.1
    · exact real made
  · exact real made

theorem numberReadable : Ensures Number.Readable number := by
  unfold number
  refine (Ensures.anyway _).bind fun negative _ => (Ensures.anyway _).bind fun whole _ => ?_
  refine (Ensures.anyway _).bind fun fraction _ => (Ensures.anyway _).bind fun exponent _ => ?_
  split
  · rename_i made
    exact .pure (partsReadable made)
  · exact .fail _

theorem itemsFromEnsures {good : α → Prop} {item : Reader α} (each : Ensures good item)
    (bound : List Char) {before : List α} (sofar : ∀ x ∈ before, good x) :
    Ensures (fun items => ∀ x ∈ items, good x) (itemsFrom item bound before) := by
  induction bound generalizing before with
  | nil => exact .fail _
  | cons c bound ih =>
    refine (Ensures.anyway _).bind fun more _ => ?_
    split
    · refine each.bind fun x holds => ih ?_
      exact List.forall_mem_cons.mpr ⟨holds, sofar⟩
    · refine (Ensures.anyway _).bind fun _ _ => .pure fun x mem => ?_
      exact sofar x (List.mem_reverse.mp mem)

theorem itemsEnsures {good : α → Prop} {item : Reader α} (each : Ensures good item) :
    Ensures (fun items => ∀ x ∈ items, good x) (items item) :=
  (Ensures.anyway _).bind fun bound _ => itemsFromEnsures each bound (by simp)

theorem fieldsFromEnsures {keeps : α → Prop} {field : α → String → Reader α}
    (each : ∀ made key, keeps made → Ensures keeps (field made key)) (bound : List Char) (first : Bool)
    {made : α} (sofar : keeps made) : Ensures keeps (fieldsFrom field bound first made) := by
  induction bound generalizing first made with
  | nil => exact .fail _
  | cons c bound ih =>
    refine (Ensures.anyway _).bind fun key _ => ?_
    split
    · exact (each made _ sofar).bind fun next kept => ih false kept
    · exact (Ensures.anyway _).bind fun _ _ => .pure sofar

theorem fieldsEnsures {keeps : α → Prop} {field : α → String → Reader α}
    (each : ∀ made key, keeps made → Ensures keeps (field made key)) {start : α} (holds : keeps start) :
    Ensures keeps (fields field start) :=
  (Ensures.anyway _).bind fun bound _ => fieldsFromEnsures each bound true holds

end Reader

structure Sorted (good : Json → Prop) (fields : List (String × Json)) : Prop where
  ordered : fields.Pairwise (fun f g => f.1 < g.1)
  values : ∀ f ∈ fields, good f.2

theorem memInsertField {key : String} {x : Json} {fields : List (String × Json)} {f : String × Json}
    (mem : f ∈ insertField key x fields) : f = (key, x) ∨ f ∈ fields := by
  induction fields with
  | nil => exact .inl (List.mem_singleton.mp mem)
  | cons g fields ih =>
    unfold insertField at mem
    split at mem
    · exact List.mem_cons.mp mem
    · split at mem
      · exact (List.mem_cons.mp mem).imp_right (List.mem_cons_of_mem g)
      · rcases List.mem_cons.mp mem with rfl | mem
        · exact .inr List.mem_cons_self
        · exact (ih mem).imp_right (List.mem_cons_of_mem g)

theorem insertFieldOrdered (key : String) (x : Json) {fields : List (String × Json)}
    (ordered : fields.Pairwise (fun f g => f.1 < g.1)) :
    (insertField key x fields).Pairwise (fun f g => f.1 < g.1) := by
  induction fields with
  | nil => exact List.pairwise_singleton _ _
  | cons g fields ih =>
    obtain ⟨first, rest⟩ := List.pairwise_cons.mp ordered
    unfold insertField
    split
    · rename_i before
      refine List.pairwise_cons.mpr ⟨fun f mem => ?_, ordered⟩
      rcases List.mem_cons.mp mem with rfl | mem
      · exact before
      · exact String.lt_trans before (first f mem)
    · rename_i behind
      split
      · rename_i same
        exact List.pairwise_cons.mpr ⟨fun f mem => same ▸ first f mem, rest⟩
      · rename_i other
        refine List.pairwise_cons.mpr ⟨fun f mem => ?_, ih rest⟩
        rcases memInsertField mem with rfl | mem
        · exact Std.lt_of_le_of_ne (String.not_lt.mp behind) (Ne.symm other)
        · exact first f mem

theorem Sorted.insert {good : Json → Prop} {fields : List (String × Json)} (sorted : Sorted good fields)
    (key : String) {x : Json} (holds : good x) : Sorted good (insertField key x fields) where
  ordered := insertFieldOrdered key x sorted.ordered
  values f mem := by
    rcases memInsertField mem with rfl | mem
    · exact holds
    · exact sorted.values f mem

namespace Reader

theorem freeFieldEnsures {good : Json → Prop} {value : Reader Json} (each : Ensures good value)
    (made : List (String × Json)) (key : String) (sorted : Sorted good made) :
    Ensures (Sorted good) (freeField value made key) :=
  (Ensures.anyway _).bind fun _ _ => each.bind fun _ holds => .pure (sorted.insert key holds)

theorem valueWithEnsures {depth : Nat} {nested : Option (Reader Json)}
    (inner : ∀ value ∈ nested, ∃ d, depth = d + 1 ∧ Ensures (Within Number.Readable d) value) :
    Ensures (Within Number.Readable depth) (valueWith nested) := by
  unfold valueWith
  refine (Ensures.anyway _).bind fun next _ => ?_
  split
  · exact .fail _
  · split
    · exact (Ensures.anyway _).bind fun _ _ => (Ensures.anyway _).bind fun _ _ => .pure .null
    split
    · exact (Ensures.anyway _).bind fun _ _ => (Ensures.anyway _).bind fun _ _ => .pure (.bool true)
    split
    · exact (Ensures.anyway _).bind fun _ _ => (Ensures.anyway _).bind fun _ _ => .pure (.bool false)
    split
    · exact numberReadable.bind fun n readable => .pure (.number readable)
    split
    · exact (Ensures.anyway _).bind fun _ _ => (Ensures.anyway _).bind fun s _ => .pure (.string s)
    split
    · split
      · exact .fail _
      · obtain ⟨d, rfl, each⟩ := inner _ rfl
        exact (Ensures.anyway _).bind fun _ _ => (itemsEnsures each).bind fun items all =>
          .pure (.array all)
    split
    · split
      · exact .fail _
      · obtain ⟨d, rfl, each⟩ := inner _ rfl
        refine (Ensures.anyway _).bind fun _ _ => ?_
        refine (fieldsEnsures (freeFieldEnsures each) ⟨.nil, by simp⟩).bind fun fields sorted => ?_
        exact .pure (.object sorted.ordered sorted.values)
    · exact .fail _

theorem valueWithin (depth : Nat) : Ensures (Within Number.Readable depth) (value depth) := by
  induction depth with
  | zero => exact valueWithEnsures (by simp)
  | succ depth ih =>
    refine valueWithEnsures fun inner same => ⟨depth, rfl, ?_⟩
    cases same
    exact ih

end Reader

theorem readIff (j : Json) :
    (∃ text, Json.read text = .ok j) ↔ Within Number.Readable nestingLimit j := by
  constructor
  · rintro ⟨text, read⟩
    exact Reader.wholeEnsures (Reader.valueWithin nestingLimit) read
  · intro within
    refine ⟨String.ofList (Spacing.none.chars 0 j), ?_⟩
    have read : Reader.value nestingLimit (Spacing.none.chars 0 j ++ []) = .ok (j, []) :=
      Reader.valueReads within 0 (by simp [Reader.Stops])
    rw [List.append_nil] at read
    simp [Json.read, readWhole, read]

end MetricUnits.Json
