import MetricUnits.Proofs.Literal.Tokens

/-! The grammar of literals as a parsing expression: of two choices the first one counts, repetition
takes what it can, and nothing that was read is given back. Each text has one outcome, its tokens. -/
namespace MetricUnits.Grammar
open Literal

inductive Kind
  | scale | measure | divisor
  deriving DecidableEq, Repr

/-- Parsing expressions. Names are in lower case; `absent` reads nothing, and only where its
expression does not match; `token` keeps the text that its expression reads. -/
inductive Expr
  | fail
  | char (c : Char)
  | name (lower : List Char)
  | any
  | finish
  | seq (e f : Expr)
  | choice (e f : Expr)
  | optional (e : Expr)
  | star (e : Expr)
  | absent (e : Expr)
  | token (kind : Kind) (e : Expr)

abbrev Outcome := Option (List (Kind × List Char) × List Char)

def behind (tokens : List (Kind × List Char)) (r : Outcome) : Outcome :=
  r.map fun (more, rest) => (tokens ++ more, rest)

inductive Reads : Expr → List Char → Outcome → Prop
  | fail {s} : Reads .fail s none
  | char {c rest} : Reads (.char c) (c :: rest) (some ([], rest))
  | notChar {c s} (other : s.head? ≠ some c) : Reads (.char c) s none
  | name {n s} (begins : Begins n s) : Reads (.name n) s (some ([], s.drop n.length))
  | notName {n s} (other : ¬ Begins n s) : Reads (.name n) s none
  | any {c rest} : Reads .any (c :: rest) (some ([], rest))
  | notAny : Reads .any [] none
  | finish : Reads .finish [] (some ([], []))
  | notFinish {c rest} : Reads .finish (c :: rest) none
  | seq {e f s tokens t r} (first : Reads e s (some (tokens, t))) (second : Reads f t r) :
      Reads (.seq e f) s (behind tokens r)
  | notSeq {e f s} (first : Reads e s none) : Reads (.seq e f) s none
  | first {e f s x} (first : Reads e s (some x)) : Reads (.choice e f) s (some x)
  | second {e f s r} (first : Reads e s none) (second : Reads f s r) : Reads (.choice e f) s r
  | optional {e s x} (inner : Reads e s (some x)) : Reads (.optional e) s (some x)
  | skipped {e s} (inner : Reads e s none) : Reads (.optional e) s (some ([], s))
  | again {e s tokens t r} (first : Reads e s (some (tokens, t))) (more : Reads (.star e) t r) :
      Reads (.star e) s (behind tokens r)
  | enough {e s} (first : Reads e s none) : Reads (.star e) s (some ([], s))
  | absent {e s} (inner : Reads e s none) : Reads (.absent e) s (some ([], s))
  | notAbsent {e s x} (inner : Reads e s (some x)) : Reads (.absent e) s none
  | token {kind e s text tokens t} (inner : Reads e s (some (tokens, t))) (parts : s = text ++ t) :
      Reads (.token kind e) s (some ([(kind, text)], t))
  | notToken {kind e s} (inner : Reads e s none) : Reads (.token kind e) s none

theorem Reads.unique {e : Expr} {s : List Char} {r r' : Outcome} (left : Reads e s r)
    (right : Reads e s r') : r = r' := by
  induction left generalizing r' with
  | fail => cases right; rfl
  | char =>
    cases right with
    | char => rfl
    | notChar other => exact absurd rfl other
  | notChar other =>
    cases right with
    | char => exact absurd rfl other
    | notChar _ => rfl
  | name begins =>
    cases right with
    | name _ => rfl
    | notName other => exact absurd begins other
  | notName other =>
    cases right with
    | name begins => exact absurd begins other
    | notName _ => rfl
  | any => cases right; rfl
  | notAny => cases right; rfl
  | finish => cases right; rfl
  | notFinish => cases right; rfl
  | seq _ _ ihFirst ihSecond =>
    cases right with
    | seq first second =>
      cases ihFirst first
      rw [ihSecond second]
    | notSeq first => cases ihFirst first
  | notSeq _ ih =>
    cases right with
    | seq first _ => cases ih first
    | notSeq _ => rfl
  | first _ ih =>
    cases right with
    | first first => exact ih first
    | second first _ => cases ih first
  | second _ _ ihFirst ihSecond =>
    cases right with
    | first first => cases ihFirst first
    | second _ second => exact ihSecond second
  | optional _ ih =>
    cases right with
    | optional inner => exact ih inner
    | skipped inner => cases ih inner
  | skipped _ ih =>
    cases right with
    | optional inner => cases ih inner
    | skipped _ => rfl
  | again _ _ ihFirst ihMore =>
    cases right with
    | again first more =>
      cases ihFirst first
      rw [ihMore more]
    | enough first => cases ihFirst first
  | enough _ ih =>
    cases right with
    | again first _ => cases ih first
    | enough _ => rfl
  | absent _ ih =>
    cases right with
    | absent _ => rfl
    | notAbsent inner => cases ih inner
  | notAbsent _ ih =>
    cases right with
    | absent inner => cases ih inner
    | notAbsent _ => rfl
  | token _ parts ih =>
    cases right with
    | token inner parts' =>
      cases ih inner
      rw [List.append_cancel_right (parts.symm.trans parts')]
    | notToken inner => cases ih inner
  | notToken _ ih =>
    cases right with
    | token inner _ => cases ih inner
    | notToken _ => rfl

def oneOf : List Expr → Expr
  | [] => .fail
  | e :: rest => .choice e (oneOf rest)

def longScale : Expr := .token .scale (oneOf (scaleNames.map .name))

def shortScale : Expr :=
  .token .scale (.seq (oneOf (letters.map .char)) (.optional (.char 'i')))

def scale : Expr := .optional (.choice longScale shortScale)

def noSlash : Expr := .seq (.absent (.char '/')) .any

def segment : Expr := .seq noSlash (.star noSlash)

def rate : Expr := .optional (.seq (.char '/') (.token .divisor segment))

def ending : Expr := .seq rate .finish

def literal : Expr := .seq scale (.seq (.token .measure segment) ending)

section
variable {s : List Char}

theorem oneOfFails {es : List Expr} (each : ∀ e ∈ es, Reads e s none) : Reads (oneOf es) s none := by
  induction es with
  | nil => exact .fail
  | cons e es ih =>
    obtain ⟨first, rest⟩ := List.forall_mem_cons.mp each
    exact .second first (ih rest)

/- Where all expressions that match read the same, their order does not count. -/
theorem oneOfReads {es : List Expr} {x} (each : ∀ e ∈ es, Reads e s none ∨ Reads e s (some x))
    (found : ∃ e ∈ es, Reads e s (some x)) : Reads (oneOf es) s (some x) := by
  induction es with
  | nil => simp at found
  | cons e es ih =>
    obtain ⟨first, rest⟩ := List.forall_mem_cons.mp each
    obtain fails | reads := first
    · obtain ⟨f, mem, reads⟩ := found
      obtain rfl | mem := List.mem_cons.mp mem
      · cases fails.unique reads
      · exact .second fails (ih rest ⟨f, mem, reads⟩)
    · exact .first reads

theorem nameReads {n : List Char} (known : n ∈ scaleNames) (begins : Begins n s) :
    Reads (oneOf (scaleNames.map .name)) s (some ([], s.drop n.length)) := by
  refine oneOfReads ?_ ⟨.name n, List.mem_map_of_mem known, .name begins⟩
  intro e mem
  obtain ⟨m, other, rfl⟩ := List.mem_map.mp mem
  by_cases also : Begins m s
  · rw [nameUnique known other begins also]
    exact .inr (.name also)
  · exact .inl (.notName also)

theorem nameFails (free : NoName s) : Reads (oneOf (scaleNames.map .name)) s none := by
  refine oneOfFails fun e mem => ?_
  obtain ⟨n, known, rfl⟩ := List.mem_map.mp mem
  exact .notName (free n known)

theorem letterReads {c : Char} (letter : c ∈ letters) (rest : List Char) :
    Reads (oneOf (letters.map .char)) (c :: rest) (some ([], rest)) := by
  refine oneOfReads ?_ ⟨.char c, List.mem_map_of_mem letter, .char⟩
  intro e mem
  obtain ⟨d, _, rfl⟩ := List.mem_map.mp mem
  by_cases same : d = c
  · exact .inr (same ▸ .char)
  · exact .inl (.notChar (by simpa using Ne.symm same))

theorem letterFails (other : ∀ c ∈ s.head?, c ∉ letters) : Reads (oneOf (letters.map .char)) s none := by
  refine oneOfFails fun e mem => ?_
  obtain ⟨d, letter, rfl⟩ := List.mem_map.mp mem
  exact .notChar fun head => other d head letter

end

def scaleTokens (scale : List Char) : List (Kind × List Char) :=
  if scale = [] then [] else [(.scale, scale)]

theorem shortReads {s p rest : List Char} (parts : s = p ++ rest) (free : NoName s)
    (reads : Reads (.seq (oneOf (letters.map .char)) (.optional (.char 'i'))) s (some ([], rest))) :
    Reads scale s (some ([(.scale, p)], rest)) :=
  .optional (.second (.notToken (nameFails free)) (.token reads parts))

theorem scaleReads {s p : List Char} (part : ScalePart s p) :
    Reads scale s (some (scaleTokens p, s.drop p.length)) := by
  cases part with
  | @name n _ known begins =>
    have length : (s.take n.length).length = n.length := by
      have short := begins.length_le
      rw [List.length_map] at short
      rw [List.length_take]
      omega
    have named : ∀ n ∈ scaleNames, n.length ≠ 0 := by decide
    have some : s.take n.length ≠ [] := fun empty => named n known (by rw [← length, empty]; rfl)
    rw [scaleTokens, if_neg some, length]
    exact .optional (.first (.token (nameReads known begins) (List.take_append_drop ..).symm))
  | @binary c rest free letter =>
    exact shortReads rfl free (.seq (letterReads letter _) (.optional .char))
  | @letter c rest free letter other =>
    exact shortReads rfl free (.seq (letterReads letter _) (.skipped (.notChar other)))
  | none free other =>
    exact .skipped (.second (.notToken (nameFails free)) (.notToken (.notSeq (letterFails other))))

theorem noSlashReads {c : Char} (other : c ≠ '/') (rest : List Char) :
    Reads noSlash (c :: rest) (some ([], rest)) :=
  .seq (.absent (.notChar (by simpa using other))) .any

theorem noSlashFails {s : List Char} (stop : ∀ c ∈ s.head?, c = '/') : Reads noSlash s none := by
  cases s with
  | nil => exact .seq (.absent (.notChar (by simp))) .notAny
  | cons c rest =>
    obtain rfl := stop c rfl
    exact .notSeq (.notAbsent .char)

theorem starReads (s : List Char) :
    Reads (.star noSlash) s (some ([], s.dropWhile (· != '/'))) := by
  induction s with
  | nil => exact .enough (noSlashFails (by simp))
  | cons c rest ih =>
    by_cases slash : c = '/'
    · subst slash
      exact .enough (noSlashFails (by simp))
    · have more : (c :: rest).dropWhile (· != '/') = rest.dropWhile (· != '/') := by simp [slash]
      rw [more]
      exact .again (noSlashReads slash rest) ih

theorem segmentReads (kind : Kind) (s : List Char) :
    Reads (.token kind segment) s ((takeName? s).map fun (name, rest) => ([(kind, name)], rest)) := by
  by_cases stop : ∀ c ∈ s.head?, c = '/'
  · have none : takeName? s = none := takeNameStop List.not_mem_nil stop
    rw [none]
    exact .notToken (.notSeq (noSlashFails stop))
  · cases s with
    | nil => simp at stop
    | cons c rest =>
      have other : c ≠ '/' := by simpa using stop
      have name : takeName? (c :: rest) =
          some (c :: rest.takeWhile (· != '/'), rest.dropWhile (· != '/')) := by
        simp [takeName?, List.span_eq_takeWhile_dropWhile, other]
      rw [name]
      exact .token (.seq (noSlashReads other rest) (starReads rest)) (by simp)

theorem takeNameStops {s name rest : List Char} (taken : takeName? s = some (name, rest)) :
    ∀ c ∈ rest.head?, c = '/' := by
  have behind : rest = s.dropWhile (· != '/') := by
    rw [takeName?, List.span_eq_takeWhile_dropWhile] at taken
    split at taken
    · contradiction
    · rename_i same
      cases taken
      exact (congrArg Prod.snd same).symm
  intro c head
  have stop := List.head?_dropWhile_not (· != '/') s
  rw [← behind, head] at stop
  simpa using stop

def pairs (t : Tokens) : List (Kind × List Char) :=
  scaleTokens t.scale ++ (.measure, t.measure) :: match t.divisor with
    | some d => [(.divisor, d)]
    | none => []

theorem endingNone : Reads ending [] (some ([], [])) :=
  .seq (.skipped (.notSeq (.notChar (by simp)))) .finish

section
variable {s t d : List Char}

theorem endingRate (last : takeName? t = some (d, [])) :
    Reads ending ('/' :: t) (some ([(.divisor, d)], [])) := by
  have divisor := segmentReads .divisor t
  rw [last] at divisor
  exact .seq (.optional (.seq .char divisor)) .finish

theorem endingFails (last : ∀ d, takeName? t ≠ some (d, [])) : Reads ending ('/' :: t) none := by
  have divisor := segmentReads .divisor t
  cases found : takeName? t with
  | none =>
    rw [found] at divisor
    exact .seq (.skipped (.seq .char divisor)) .notFinish
  | some taken =>
    obtain ⟨d, _ | ⟨c, rest⟩⟩ := taken
    · exact absurd found (last d)
    · rw [found] at divisor
      exact .seq (.optional (.seq .char divisor)) .notFinish

theorem scaleTakenReads (s : List Char) :
    Reads scale s (some (scaleTokens (takeScale s).1, (takeScale s).2)) := by
  have part := scalePartTaken s
  have rest : s.drop (takeScale s).1.length = (takeScale s).2 :=
    congrArg Prod.snd (takeScaleEq part).symm
  rw [← rest]
  exact scaleReads part

theorem literalFails (found : takeName? (takeScale s).2 = none) : Reads literal s none := by
  have measure := segmentReads .measure (takeScale s).2
  rw [found] at measure
  exact .seq (scaleTakenReads s) (.notSeq measure)

theorem literalEnds {m : List Char} {r : Outcome} (found : takeName? (takeScale s).2 = some (m, t))
    (last : Reads ending t r) :
    Reads literal s (behind (scaleTokens (takeScale s).1) (behind [(.measure, m)] r)) := by
  have measure := segmentReads .measure (takeScale s).2
  rw [found] at measure
  exact .seq (scaleTakenReads s) (.seq measure last)

end

theorem literalReads (s : List Char) : Reads literal s ((tokenize s).map fun t => (pairs t, [])) := by
  cases found : takeName? (takeScale s).2 with
  | none =>
    have tokens : tokenize s = none := by simp [tokenize, found]
    rw [tokens]
    exact literalFails found
  | some taken =>
    obtain ⟨m, _ | ⟨c, rest⟩⟩ := taken
    · have tokens : tokenize s = some ⟨(takeScale s).1, m, none⟩ := by simp [tokenize, found]
      rw [tokens]
      exact literalEnds found endingNone
    · obtain rfl : c = '/' := takeNameStops found c rfl
      by_cases last : ∃ d, takeName? rest = some (d, [])
      · obtain ⟨d, last⟩ := last
        have tokens : tokenize s = some ⟨(takeScale s).1, m, some d⟩ := by
          simp [tokenize, found, last]
        rw [tokens]
        exact literalEnds found (endingRate last)
      · rw [not_exists] at last
        have more : ∀ d behind, takeName? rest = some (d, behind) → behind ≠ [] := by
          rintro d _ taken rfl
          exact last d taken
        have tokens : tokenize s = none := by simpa [tokenize, found] using more
        rw [tokens]
        exact literalEnds found (endingFails last)

theorem literalReadsIff (s : List Char) (r : Outcome) :
    Reads literal s r ↔ r = (tokenize s).map fun t => (pairs t, []) := by
  constructor
  · exact fun reads => reads.unique (literalReads s)
  · rintro rfl
    exact literalReads s

end MetricUnits.Grammar
