import CsmsPlatform.Framework.Decimal
import CsmsPlatform.Framework.Redis.Keyspace

/-!
# Numbers in Redis scripts

A script's numbers are doubles. An integer reply of a command is rounded when the script receives it,
and a number is written as text again when it is an argument of a command, or cut to 64 bits when the
script returns it. All of this is exact up to `2^53`.
-/

namespace Redis.Lua

/-- The double nearest to a natural number: 53 significant bits, ties to even. -/
def nearest (n : Nat) : Nat :=
  let unit := 2^(n.log2-52)
  let quotient := n/unit
  let rest := n%unit
  if unit < 2*rest ∨ unit = 2*rest ∧ quotient%2 = 1 then (quotient+1)*unit else quotient*unit

def number (n : Int) : Int := n.sign*(nearest n.natAbs : Int)

/-- The fewest digits that are read back as the same double, and the number of zeros after them. -/
def shortest (x : Nat) : Nat × Nat :=
  let candidates := (List.range 20).reverse.map fun zeros => ((x+10^zeros/2)/10^zeros,zeros)
  (candidates.find? fun (digits,zeros) => nearest (digits*10^zeros) = x).getD (x,0)

/-- One digit before the decimal point, if there are others, and the exponent. -/
def exponential (digits : List Char) (zeros : Nat) : String :=
  String.ofList (digits.take 1) ++ (if digits.length ≤ 1 then "" else "." ++ String.ofList (digits.drop 1)) ++
    "e+" ++ toString (digits.length-1+zeros)

/-- A whole number as an argument of a command. Redis prints it as an integer up to `2^62` and as a
double beyond, which has an exponent when it ends in eight zeros. -/
def text (x : Int) : String :=
  if x.natAbs ≤ 2^62 then toString x
  else
    let (digits,zeros) := shortest x.natAbs
    if zeros < 8 then toString (x.sign*((digits*10^zeros : Nat) : Int))
    else (if x < 0 then "-" else "") ++ exponential (Nat.toDigits 10 digits) zeros

/-- A whole number as a reply. The conversion to 64 bits gives the least integer for what does not
fit, as on amd64. -/
def toReply (x : Int) : Int := if -2^63 ≤ x ∧ x < 2^63 then x else -2^63

theorem nearest_eq {n : Nat} (h : n ≤ 2^53) : nearest n = n := by
  rcases Nat.lt_or_eq_of_le h with hlt | rfl
  · have hlog : n.log2-52 = 0 := by
      by_cases hz : n = 0
      · simp [hz]
      · have := (Nat.log2_lt hz).mpr hlt
        omega
    simp [nearest,hlog,Nat.mod_one]
  · decide +kernel

theorem number_eq {n : Int} (h : n.natAbs ≤ 2^53) : number n = n := by
  rw [number,nearest_eq h,Int.sign_mul_natAbs]

theorem text_eq {x : Int} (h : x.natAbs ≤ 2^62) : text x = toString x := by
  rw [text,if_pos h]

theorem text_cases (x : Int) :
    (∃ n : Int, text x = toString n) ∨ ∃ sign digits zeros, text x = sign ++ exponential digits zeros := by
  unfold text
  split
  · exact .inl ⟨_,rfl⟩
  · generalize shortest x.natAbs = printed
    obtain ⟨digits,zeros⟩ := printed
    by_cases hzeros : zeros < 8
    · exact .inl ⟨_,if_pos hzeros⟩
    · exact .inr ⟨_,_,_,if_neg hzeros⟩

theorem parseUint_exponential (sign : String) (digits : List Char) (zeros : Nat) :
    Decimal.parseUint (sign ++ exponential digits zeros) = none := by
  have hmem : 'e' ∈ (sign ++ exponential digits zeros).toList := by
    simp [exponential]
  have hvalue : Decimal.digitsValue (sign ++ exponential digits zeros).toList = none := by
    rw [Option.eq_none_iff_forall_ne_some]
    intro n hn
    exact absurd ((Decimal.digitsValue_eq_some.mp hn).2.1 'e' hmem) (by decide)
  rw [Decimal.parseUint,hvalue]

/-- What the strict reader takes of a script's number was written as the reader's number is. -/
theorem text_of_parseUint {x : Int} {u : UInt64} (h : Decimal.parseUint (text x) = some u) :
    text x = toString u := by
  rcases text_cases x with ⟨n,hn⟩ | ⟨sign,digits,zeros,hx⟩
  · rw [hn] at h ⊢
    exact Decimal.toString_of_parseUint h
  · rw [hx,parseUint_exponential] at h
    cases h

theorem toReply_eq {x : Int} (hlo : -2^63 ≤ x) (hhi : x < 2^63) : toReply x = x := by
  rw [toReply,if_pos ⟨hlo,hhi⟩]

theorem eq_of_toReply {x : Int} (h : 0 ≤ toReply x) : toReply x = x := by
  unfold toReply at h ⊢
  split at h
  · next hfits => rw [if_pos hfits]
  · omega

/-- A small integer comes through a script unchanged. -/
theorem toReply_number {n : Int} (h : n.natAbs ≤ 2^53) : toReply (number n) = n := by
  rw [number_eq h,toReply_eq (by omega) (by omega)]

/-- The first integer that is not a double is rounded down to its predecessor. -/
theorem number_last : number ((2^53+1 : Nat) : Int) = (2^53 : Nat) := by
  decide +kernel

example : number (2^53+3) = 2^53+4 ∧ toReply (number (2^63-1)) = -2^63 ∧
    text (2^62+1024) = "4611686018427389000" ∧ text (5*10^18) = "5e+18" := by
  decide +kernel

end Redis.Lua
