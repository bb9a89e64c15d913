import Mathlib

/-!
# Decimal text

The two strict readers of base-ten text. `parseUint` takes digits only, `parseInt` takes an
optional sign before them, and both refuse a value outside their 64-bit range.
-/

namespace Decimal

def digitsValue (cs : List Char) : Option Nat :=
  if cs ≠ [] ∧ cs.all Char.isDigit = true then some (Nat.ofDigitChars 10 cs 0) else none

def parseUint (s : String) : Option UInt64 :=
  match digitsValue s.toList with
  | some n => if n < 2^64 then some (UInt64.ofNat n) else none
  | none => none

def signedDigits : List Char → Option (Bool × Nat)
  | '-'::cs => (digitsValue cs).map (true, ·)
  | '+'::cs => (digitsValue cs).map (false, ·)
  | cs => (digitsValue cs).map (false, ·)

def parseInt (s : String) : Option Int :=
  match signedDigits s.toList with
  | some (false, n) => if n < 2^63 then some (n : Int) else none
  | some (true, n) => if n ≤ 2^63 then some (-(n : Int)) else none
  | none => none

theorem digitsValue_toDigits (n : Nat) : digitsValue (Nat.toDigits 10 n) = some n := by
  have hall : (Nat.toDigits 10 n).all Char.isDigit = true := by
    rw [List.all_eq_true]
    intro c hc
    exact Nat.isDigit_of_mem_toDigits (by decide) (by decide) hc
  rw [digitsValue,if_pos ⟨Nat.toDigits_ne_nil,hall⟩,Nat.ofDigitChars_ten_toDigits]

theorem parseUint_toString (n : Nat) (h : n < 2^64) :
    parseUint (toString n) = some (UInt64.ofNat n) := by
  rw [parseUint,Nat.toString_eq_repr,Nat.toList_repr,digitsValue_toDigits]
  exact if_pos h

theorem toString_of_parseUint {i : Int} {u : UInt64} (h : parseUint (toString i) = some u) :
    toString i = toString u := by
  cases i with
  | ofNat n =>
    have hr : (toString (Int.ofNat n)).toList = Nat.toDigits 10 n := Nat.toList_repr
    rw [parseUint,hr,digitsValue_toDigits] at h
    simp only [Option.ite_none_right_eq_some,Option.some.injEq] at h
    obtain ⟨hn,rfl⟩ := h
    change n.repr = (UInt64.ofNat n).toNat.repr
    rw [UInt64.toNat_ofNat_of_lt' hn]
  | negSucc n =>
    have hr : (toString (Int.negSucc n)).toList = '-'::Nat.toDigits 10 (n+1) := by
      change ("-" ++ (n+1).repr).toList = _
      simp
    rw [parseUint,hr] at h
    cases h

private theorem toDigits_head_digit (n : Nat) (c : Char) (cs : List Char)
    (h : Nat.toDigits 10 n = c::cs) : c.isDigit = true :=
  Nat.isDigit_of_mem_toDigits (b := 10) (n := n) (by decide) (by decide) (by simp [h])

theorem signedDigits_toDigits (n : Nat) :
    signedDigits (Nat.toDigits 10 n) = some (false,n) := by
  have hv := digitsValue_toDigits n
  cases hd : Nat.toDigits 10 n with
  | nil => exact absurd hd Nat.toDigits_ne_nil
  | cons c cs =>
    have hc := toDigits_head_digit n c cs hd
    rw [hd] at hv
    unfold signedDigits
    split
    · next heq => simp only [List.cons.injEq] at heq; simp [heq.1] at hc
    · next heq => simp only [List.cons.injEq] at heq; simp [heq.1] at hc
    · simp [hv]

theorem parseInt_toString (i : Int) (hlo : -2^63 ≤ i) (hhi : i < 2^63) :
    parseInt (toString i) = some i := by
  cases i with
  | ofNat n =>
    have hr : (toString (Int.ofNat n)).toList = Nat.toDigits 10 n := Nat.toList_repr
    have hn : n < 2^63 := by
      have : (n : Int) < 2^63 := hhi
      omega
    rw [parseInt,hr,signedDigits_toDigits]
    exact if_pos hn
  | negSucc n =>
    have hr : (toString (Int.negSucc n)).toList = '-'::Nat.toDigits 10 (n+1) := by
      change ("-" ++ (n+1).repr).toList = _
      simp
    have hn : n+1 ≤ 2^63 := by
      have : -(2^63 : Int) ≤ Int.negSucc n := hlo
      omega
    rw [parseInt,hr,signedDigits,digitsValue_toDigits]
    exact if_pos hn

theorem parseInt_toString_nat (n : Nat) :
    parseInt (toString n) = if n < 2^63 then some (n : Int) else none := by
  rw [parseInt,Nat.toString_eq_repr,Nat.toList_repr,signedDigits_toDigits]

/-- Decimal digits, at least one, after a sign or none, with the integer they stand for. -/
inductive Spells : List Char → Int → Prop where
  | unsigned {digits : List Char} (hne : digits ≠ []) (hdigits : ∀ c ∈ digits, c.isDigit = true) :
      Spells digits (Nat.ofDigitChars 10 digits 0)
  | plus {digits : List Char} (hne : digits ≠ []) (hdigits : ∀ c ∈ digits, c.isDigit = true) :
      Spells ('+'::digits) (Nat.ofDigitChars 10 digits 0)
  | minus {digits : List Char} (hne : digits ≠ []) (hdigits : ∀ c ∈ digits, c.isDigit = true) :
      Spells ('-'::digits) (-(Nat.ofDigitChars 10 digits 0 : Int))

theorem digitsValue_eq_some {cs : List Char} {n : Nat} : digitsValue cs = some n ↔
    cs ≠ [] ∧ (∀ c ∈ cs, c.isDigit = true) ∧ Nat.ofDigitChars 10 cs 0 = n := by
  unfold digitsValue
  simp only [List.all_eq_true]
  split
  · next h =>
    rw [Option.some.injEq]
    exact ⟨fun hvalue => ⟨h.1,h.2,hvalue⟩,fun hvalue => hvalue.2.2⟩
  · next h =>
    constructor
    · intro hnone
      cases hnone
    · rintro ⟨hne,hdigits,_⟩
      exact absurd ⟨hne,hdigits⟩ h

theorem signedDigits_spells {cs : List Char} {negative : Bool} {n : Nat}
    (h : signedDigits cs = some (negative,n)) : Spells cs (if negative then -(n : Int) else n) := by
  unfold signedDigits at h
  split at h
  · obtain ⟨value,hvalue,hpair⟩ := Option.map_eq_some_iff.mp h
    cases hpair
    obtain ⟨hne,hdigits,rfl⟩ := digitsValue_eq_some.mp hvalue
    exact .minus hne hdigits
  · obtain ⟨value,hvalue,hpair⟩ := Option.map_eq_some_iff.mp h
    cases hpair
    obtain ⟨hne,hdigits,rfl⟩ := digitsValue_eq_some.mp hvalue
    exact .plus hne hdigits
  · obtain ⟨value,hvalue,hpair⟩ := Option.map_eq_some_iff.mp h
    cases hpair
    obtain ⟨hne,hdigits,rfl⟩ := digitsValue_eq_some.mp hvalue
    exact .unsigned hne hdigits

theorem Spells.signedDigits {cs : List Char} {i : Int} (h : Spells cs i) :
    ∃ negative n, Decimal.signedDigits cs = some (negative,n) ∧ i = if negative then -(n : Int) else n := by
  cases h with
  | unsigned hne hdigits =>
    have hvalue := digitsValue_eq_some.mpr ⟨hne,hdigits,rfl⟩
    refine ⟨false,_,?_,rfl⟩
    unfold Decimal.signedDigits
    split
    · exact absurd (hdigits '-' (by simp)) (by decide)
    · exact absurd (hdigits '+' (by simp)) (by decide)
    · simp [hvalue]
  | plus hne hdigits =>
    exact ⟨false,_,by simp [Decimal.signedDigits,digitsValue_eq_some.mpr ⟨hne,hdigits,rfl⟩],rfl⟩
  | minus hne hdigits =>
    exact ⟨true,_,by simp [Decimal.signedDigits,digitsValue_eq_some.mpr ⟨hne,hdigits,rfl⟩],rfl⟩

/-- The reader takes exactly the spellings of the integers in its range. -/
theorem parseInt_eq_some_iff {s : String} {i : Int} :
    parseInt s = some i ↔ Spells s.toList i ∧ -2^63 ≤ i ∧ i < 2^63 := by
  unfold parseInt
  constructor
  · intro h
    split at h
    · next n hsigned =>
      have hspells := signedDigits_spells hsigned
      split at h
      · cases h
        exact ⟨hspells,by omega,by omega⟩
      · cases h
    · next n hsigned =>
      have hspells := signedDigits_spells hsigned
      split at h
      · cases h
        exact ⟨hspells,by omega,by omega⟩
      · cases h
    · cases h
  · rintro ⟨hspells,hlo,hhi⟩
    obtain ⟨negative,n,hsigned,rfl⟩ := hspells.signedDigits
    cases negative with
    | false =>
      simp only [Bool.false_eq_true,if_false] at hlo hhi
      simp only [hsigned]
      rw [if_pos (by omega)]
      rfl
    | true =>
      simp only [if_true] at hlo hhi
      simp only [hsigned]
      rw [if_pos (by omega)]
      rfl

theorem colon_not_mem (i : Int) : ':' ∉ (toString i).toList := by
  have hdigits (n : Nat) : ':' ∉ (Nat.toDigits 10 n) := by
    intro hm
    have hd := Nat.isDigit_of_mem_toDigits (by decide) (by decide) hm
    exact absurd hd (by decide)
  cases i with
  | ofNat n =>
    change ':' ∉ (Nat.repr n).toList
    rw [Nat.toList_repr]
    exact hdigits n
  | negSucc n =>
    change ':' ∉ ("-" ++ Nat.repr (n+1)).toList
    rw [String.toList_append,Nat.toList_repr]
    simp [hdigits]

theorem split_last_eq {α : Type} {x : α} {s s' d d' : List α} (h : s ++ x::d = s' ++ x::d')
    (hd : x ∉ d) (hd' : x ∉ d') : s = s' ∧ d = d' := by
  rcases List.append_eq_append_iff.mp h with ⟨as,hs,hx⟩ | ⟨as,hs,hx⟩
  · cases as with
    | nil => exact ⟨by simpa using hs.symm,by simpa using hx⟩
    | cons a as =>
      simp only [List.cons_append,List.cons.injEq] at hx
      exact absurd (by simp [hx.2]) hd
  · cases as with
    | nil => exact ⟨by simpa using hs,by simpa using hx.symm⟩
    | cons a as =>
      simp only [List.cons_append,List.cons.injEq] at hx
      exact absurd (by simp [hx.2]) hd'

theorem toDigits_head (n : Nat) : Nat.toDigits 10 n = ['0'] ∨
    ∃ c cs, Nat.toDigits 10 n = c::cs ∧ c ≠ '0' := by
  induction n using Nat.strong_induction_on with
  | _ n ih =>
    by_cases hn : n < 10
    · have hdigit : n = 0 ∨ n.digitChar ≠ '0' := by
        have hall : ∀ m < 10, m = 0 ∨ m.digitChar ≠ '0' := by decide
        exact hall n hn
      rw [Nat.toDigits_of_lt_base hn]
      rcases hdigit with rfl | hne
      · exact .inl rfl
      · exact .inr ⟨_,_,rfl,hne⟩
    · have hle : 10 ≤ n := by omega
      rw [Nat.toDigits_of_base_le (by decide) hle]
      -- the quotient is positive, so it is not the lone zero
      rcases ih (n/10) (by omega) with hzero | ⟨c,cs,hc,hne⟩
      · have hval := digitsValue_toDigits (n/10)
        rw [hzero] at hval
        have hq : n/10 = 0 := (Option.some.inj hval).symm
        omega
      · exact .inr ⟨c,cs ++ [(n%10).digitChar],by rw [hc]; rfl,hne⟩

end Decimal
