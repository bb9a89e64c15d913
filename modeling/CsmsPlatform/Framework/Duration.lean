import Mathlib.Data.Int.Log
import Mathlib.Data.Rat.Floor

/-!
# Durations as text

The reader of texts such as `1h15m30.5s` into signed 64-bit nanoseconds. A text is an optional sign
and a nonempty sequence of terms, each a decimal number with a unit. The part of a term after the
decimal point is scaled in binary floating point.
-/

namespace Duration

/-- The nearest number of 53 significant bits, of two equally near ones the even one. No number that
the reader rounds leaves the range of exponents unless the result is zero in any case. -/
def float64 (q : ℚ) : ℚ :=
  if q ≤ 0 then 0
  else
    let scale : ℚ := 2^(Int.log 2 q-52)
    let low := ⌊q/scale⌋
    let rest := q/scale-low
    (if rest < 1/2 ∨ rest = 1/2 ∧ low % 2 = 0 then low else low+1)*scale

def digitValue (c : Char) : Nat := c.toNat - '0'.toNat

def leadingInt (x : Nat) : List Char → Option (Nat × List Char)
  | [] => some (x,[])
  | c::cs =>
    if c.isDigit = false then some (x,c::cs)
    else if x > 2^63/10 then none
    else if x*10+digitValue c > 2^63 then none
    else leadingInt (x*10+digitValue c) cs

/-- The digits after the decimal point as a number and the power of ten it is over. Digits beyond the
range of the number are skipped. -/
def leadingFraction (x : Nat) (scale : ℚ) (overflow : Bool) : List Char → Nat × ℚ × List Char
  | [] => (x,scale,[])
  | c::cs =>
    if c.isDigit = false then (x,scale,c::cs)
    else if overflow = true ∨ x > (2^63-1)/10 ∨ x*10+digitValue c > 2^63 then
      leadingFraction x scale true cs
    else leadingFraction (x*10+digitValue c) (float64 (scale*10)) false cs

def unitMap (u : List Char) : Option Nat :=
  match String.ofList u with
  | "ns" => some 1
  | "us" => some 1000
  | "µs" => some 1000
  | "μs" => some 1000
  | "ms" => some 1000000
  | "s" => some 1000000000
  | "m" => some 60000000000
  | "h" => some 3600000000000
  | _ => none

def isUnitChar (c : Char) : Bool := c ≠ '.' && !c.isDigit

def termValue (v f : Nat) (scale : ℚ) (unit : Nat) : Option Nat :=
  if v > 2^63/unit then none
  else if f = 0 then some (v*unit)
  else
    let nanoseconds := v*unit+⌊float64 (float64 f*float64 (unit/scale))⌋₊
    if nanoseconds > 2^63 then none else some nanoseconds

def leadingNumber (cs : List Char) : Option ((Nat × Nat × ℚ) × List Char) :=
  match leadingInt 0 cs with
  | none => none
  | some (v,'.'::digits) =>
    let (f,scale,rest) := leadingFraction 0 1 false digits
    if digits.length+1 = cs.length ∧ rest.length = digits.length then none
    else some ((v,f,scale),rest)
  | some (v,rest) => if rest.length = cs.length then none else some ((v,0,1),rest)

def leadingTerm (cs : List Char) : Option (Nat × List Char) := do
  let ((v,f,scale),rest) ← leadingNumber cs
  let unit ← unitMap (rest.takeWhile isUnitChar)
  let nanoseconds ← termValue v f scale unit
  some (nanoseconds,rest.dropWhile isUnitChar)

theorem leadingInt_length {x v : Nat} {cs rest : List Char} (h : leadingInt x cs = some (v,rest)) :
    rest.length ≤ cs.length := by
  induction cs generalizing x with
  | nil =>
    cases h
    exact le_rfl
  | cons c cs ih =>
    unfold leadingInt at h
    split at h
    · cases h
      exact le_rfl
    · split at h
      · cases h
      · split at h
        · cases h
        · exact (ih h).trans (by simp)

theorem leadingFraction_length (x : Nat) (scale : ℚ) (overflow : Bool) (cs : List Char) :
    (leadingFraction x scale overflow cs).2.2.length ≤ cs.length := by
  induction cs generalizing x scale overflow with
  | nil => exact le_rfl
  | cons c cs ih =>
    unfold leadingFraction
    split
    · exact le_rfl
    · split
      · exact (ih _ _ _).trans (by simp)
      · exact (ih _ _ _).trans (by simp)

theorem leadingNumber_length {cs rest : List Char} {number : Nat × Nat × ℚ}
    (h : leadingNumber cs = some (number,rest)) : rest.length ≤ cs.length := by
  unfold leadingNumber at h
  split at h
  · cases h
  · next v digits hint =>
    have hle := leadingInt_length hint
    simp only [List.length_cons] at hle
    simp only at h
    split at h
    · cases h
    · cases h
      exact (leadingFraction_length _ _ _ _).trans (by omega)
  · next v afterInt _ hint =>
    split at h
    · cases h
    · cases h
      exact leadingInt_length hint

theorem leadingTerm_length {cs rest : List Char} {n : Nat} (h : leadingTerm cs = some (n,rest)) :
    rest.length < cs.length := by
  unfold leadingTerm at h
  obtain ⟨⟨⟨v,f,scale⟩,unitAndRest⟩,hnumber,h⟩ := Option.bind_eq_some_iff.mp h
  obtain ⟨unit,hunit,h⟩ := Option.bind_eq_some_iff.mp h
  obtain ⟨nanoseconds,_,h⟩ := Option.bind_eq_some_iff.mp h
  cases h
  have hle := leadingNumber_length hnumber
  have hsplit := congrArg List.length (List.takeWhile_append_dropWhile (p := isUnitChar) (l := unitAndRest))
  have hne : unitAndRest.takeWhile isUnitChar ≠ [] := by
    intro hnil
    rw [hnil] at hunit
    cases hunit
  have hpos := List.length_pos_iff.mpr hne
  simp only [List.length_append] at hsplit
  omega

def sumTerms (d : Nat) (cs : List Char) : Option Nat :=
  if cs = [] then some d
  else
    match h : leadingTerm cs with
    | none => none
    | some (v,rest) => if (d+v) % 2^64 > 2^63 then none else sumTerms ((d+v) % 2^64) rest
termination_by cs.length
decreasing_by exact leadingTerm_length h

def parseDuration (s : String) : Option Int64 := do
  let (negative,cs) := match s.toList with
    | '-'::cs => (true,cs)
    | '+'::cs => (false,cs)
    | cs => (false,cs)
  if cs = ['0'] then return 0
  if cs = [] then none
  let d ← sumTerms 0 cs
  if negative then return Int64.ofInt (-d)
  if d > 2^63-1 then none
  return Int64.ofNat d

end Duration
