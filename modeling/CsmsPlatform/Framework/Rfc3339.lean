import Mathlib

/-!
# RFC 3339 timestamps

An instant is its nanoseconds since the Unix epoch. The writer gives the UTC text of an instant of
the years 0 to 9999, with the fraction's trailing zeros left out; the reader takes any offset. Beside
these strict two stand the ones of a layout to the second, which writes any year and reads more.
-/

namespace Rfc3339

def isLeap (year : Nat) : Bool := year%4 = 0 && (year%100 ≠ 0 || year%400 = 0)

def daysBeforeYear (year : Nat) : Nat := 365*year+(year+3)/4+(year+399)/400-(year+99)/100

def epochDay : Nat := daysBeforeYear 1970

def yearOf (day : Nat) : Nat :=
  let guess := 400*day/146097
  if day < daysBeforeYear guess then guess-1
  else if daysBeforeYear (guess+1) ≤ day then guess+1
  else guess

def monthLengths (leap : Bool) : List Nat :=
  [31,if leap then 29 else 28,31,30,31,30,31,31,30,31,30,31]

def findMonth : List Nat → Nat → Nat → Nat × Nat
  | [], month, n => (month,n+1)
  | len::rest, month, n => if n < len then (month,n+1) else findMonth rest (month+1) (n-len)

def monthDay (leap : Bool) (n : Nat) : Nat × Nat := findMonth (monthLengths leap) 1 n

def daysIn (leap : Bool) (month : Nat) : Nat := (monthLengths leap).getD (month-1) 0

def dayNumber (leap : Bool) (month day : Nat) : Nat := ((monthLengths leap).take (month-1)).sum+(day-1)

def digit (n : Nat) : Char := Char.ofNat (48+n%10)

def pad : Nat → Nat → List Char
  | 0, _ => []
  | width+1, n => pad width (n/10) ++ [digit n]

def trimZeros (cs : List Char) : List Char := (cs.reverse.dropWhile (· = '0')).reverse

def fractionText (nanoseconds : Nat) : List Char :=
  if nanoseconds = 0 then [] else '.'::trimZeros (pad 9 nanoseconds)

structure Civil where
  year : Nat
  month : Nat
  day : Nat
  hour : Nat
  minute : Nat
  second : Nat
  nanosecond : Nat
deriving DecidableEq, Repr

def civilOf (total : Nat) : Civil :=
  let day := total/86400000000000
  let year := yearOf day
  let (month,dayOfMonth) := monthDay (isLeap year) (day-daysBeforeYear year)
  let second := total/1000000000%86400
  ⟨year,month,dayOfMonth,second/3600,second/60%60,second%60,total%1000000000⟩

def Civil.text (c : Civil) : List Char :=
  pad 4 c.year ++ '-'::(pad 2 c.month ++ '-'::(pad 2 c.day ++ 'T'::(pad 2 c.hour ++
    ':'::(pad 2 c.minute ++ ':'::(pad 2 c.second ++ fractionText c.nanosecond)))))

def Civil.Valid (c : Civil) : Prop :=
  1 ≤ c.month ∧ c.month ≤ 12 ∧ 1 ≤ c.day ∧ c.day ≤ daysIn (isLeap c.year) c.month ∧ c.hour < 24 ∧
    c.minute < 60 ∧ c.second < 60

instance (c : Civil) : Decidable c.Valid := inferInstanceAs (Decidable (_ ∧ _ ∧ _ ∧ _ ∧ _ ∧ _ ∧ _))

def Civil.total (c : Civil) : Nat :=
  ((daysBeforeYear c.year+dayNumber (isLeap c.year) c.month c.day)*86400+c.hour*3600+c.minute*60+
    c.second)*1000000000+c.nanosecond

def epochNanoseconds : Nat := epochDay*86400000000000

/-- Outside the years 0 to 9999 there is no text. -/
def format (time : Int) : Option (List Char) :=
  let total := time+epochNanoseconds
  if 0 ≤ total ∧ total < daysBeforeYear 10000*86400000000000 then
    some ((civilOf total.toNat).text ++ ['Z'])
  else none

/-- Four hundred years have the same calendar as any other four hundred. -/
def cycleNanoseconds : Nat := 146097*86400000000000

/-- At least four digits, behind the sign of a year before year 0. -/
def yearText (year : Int) : List Char :=
  let digits := if year.natAbs < 10000 then pad 4 year.natAbs else Nat.toDigits 10 year.natAbs
  if year < 0 then '-'::digits else digits

def formatSeconds (time : Int) : List Char :=
  let total := time+epochNanoseconds
  let cycles := (-total).toNat/cycleNanoseconds+1
  let c := civilOf (total+cycles*cycleNanoseconds).toNat
  yearText (c.year-400*cycles) ++ '-'::(pad 2 c.month ++ '-'::(pad 2 c.day ++ 'T'::(pad 2 c.hour ++
    ':'::(pad 2 c.minute ++ ':'::(pad 2 c.second ++ ['Z'])))))

def readDigits (width : Nat) (input : List Char) : Option (Nat × List Char) :=
  if (input.take width).length = width ∧ (input.take width).all Char.isDigit = true then
    some (Nat.ofDigitChars 10 (input.take width) 0,input.drop width)
  else none

def expect (c : Char) : List Char → Option (List Char)
  | x::rest => if x = c then some rest else none
  | [] => none

/-- The value of the first nine digits, as if the missing ones were zeros. -/
def nanosecondsOf (digits : List Char) : Nat :=
  Nat.ofDigitChars 10 ((digits ++ List.replicate 9 '0').take 9) 0

def readFraction : List Char → Option (Nat × List Char)
  | '.'::rest =>
    if rest.takeWhile Char.isDigit = [] then none
    else some (nanosecondsOf (rest.takeWhile Char.isDigit),rest.dropWhile Char.isDigit)
  | rest => some (0,rest)

def readZone (maxHour maxMinute : Nat) : List Char → Option (Int × List Char)
  | 'Z'::rest => some (0,rest)
  | sign::rest => do
    let (hour,rest) ← readDigits 2 rest
    let rest ← expect ':' rest
    let (minute,rest) ← readDigits 2 rest
    if maxHour < hour ∨ maxMinute < minute then none
    else if sign = '+' then some (hour*3600+minute*60,rest)
    else if sign = '-' then some (-(hour*3600+minute*60 : Nat),rest)
    else none
  | [] => none

def readDate (input : List Char) : Option ((Nat × Nat × Nat) × List Char) := do
  let (year,rest) ← readDigits 4 input
  let rest ← expect '-' rest
  let (month,rest) ← readDigits 2 rest
  let rest ← expect '-' rest
  let (day,rest) ← readDigits 2 rest
  return ((year,month,day),rest)

def readClock (input : List Char) : Option ((Nat × Nat × Nat) × List Char) := do
  let (hour,rest) ← readDigits 2 input
  let rest ← expect ':' rest
  let (minute,rest) ← readDigits 2 rest
  let rest ← expect ':' rest
  let (second,rest) ← readDigits 2 rest
  return ((hour,minute,second),rest)

def readCivil (input : List Char) : Option (Civil × List Char) := do
  let ((year,month,day),rest) ← readDate input
  let rest ← expect 'T' rest
  let ((hour,minute,second),rest) ← readClock rest
  let (nanosecond,rest) ← readFraction rest
  return (⟨year,month,day,hour,minute,second,nanosecond⟩,rest)

def parse (input : List Char) : Option Int := do
  let (civil,rest) ← readCivil input
  let (offset,rest) ← readZone 23 59 rest
  if civil.Valid ∧ rest = [] then return (civil.total-offset*1000000000-epochNanoseconds : Int)
  else none

def readHour (input : List Char) : Option (Nat × List Char) := (readDigits 2 input).or (readDigits 1 input)

def readCommaFraction : List Char → Option (Nat × List Char)
  | ','::rest => readFraction ('.'::rest)
  | rest => readFraction rest

/-- Also reads an hour of one digit, a comma before the fraction, and offsets of up to 24 hours and 60
minutes. -/
def parseLenient (input : List Char) : Option Int := do
  let ((year,month,day),rest) ← readDate input
  let rest ← expect 'T' rest
  let (hour,rest) ← readHour rest
  let rest ← expect ':' rest
  let (minute,rest) ← readDigits 2 rest
  let rest ← expect ':' rest
  let (second,rest) ← readDigits 2 rest
  let (nanosecond,rest) ← readCommaFraction rest
  let (offset,rest) ← readZone 24 60 rest
  let civil : Civil := ⟨year,month,day,hour,minute,second,nanosecond⟩
  if civil.Valid ∧ rest = [] then return (civil.total-offset*1000000000-epochNanoseconds : Int)
  else none

theorem yearOf_spec (day : Nat) : daysBeforeYear (yearOf day) ≤ day ∧ day < daysBeforeYear (yearOf day+1) := by
  unfold yearOf
  simp only
  generalize hg : 400*day/146097 = guess
  unfold daysBeforeYear
  split
  · cases guess with
    | zero => omega
    | succ g =>
      rw [show g+1-1 = g by omega]
      omega
  · split
    · omega
    · omega

private theorem ceil_succ (year k : Nat) (hk : 0 < k) :
    (year+1+(k-1))/k = (year+(k-1))/k+(if year%k = 0 then 1 else 0) := by
  obtain ⟨k,rfl⟩ : ∃ m, k = m+1 := ⟨k-1,by omega⟩
  simp only [Nat.add_sub_cancel]
  rw [show year+1+k = year+k+1 by omega,Nat.succ_div,
    show year+k+1 = year+(k+1) by omega]
  simp only [Nat.dvd_iff_mod_eq_zero,Nat.add_mod_right]

theorem yearLength (year : Nat) :
    daysBeforeYear (year+1) = daysBeforeYear year+(if isLeap year then 366 else 365) := by
  have h4 := ceil_succ year 4 (by decide)
  have h100 := ceil_succ year 100 (by decide)
  have h400 := ceil_succ year 400 (by decide)
  simp only [Nat.reduceSub] at h4 h100 h400
  have hle : (year+99)/100 ≤ (year+3)/4 := by omega
  have hmod : year%400 = 0 → year%100 = 0 := by omega
  have hmod' : year%100 = 0 → year%4 = 0 := by omega
  unfold daysBeforeYear isLeap
  rw [h4,h100,h400]
  generalize (year+3)/4 = a at hle ⊢
  generalize (year+99)/100 = b at hle ⊢
  generalize (year+399)/400 = c
  by_cases h1 : year%4 = 0
  · by_cases h2 : year%100 = 0
    · by_cases h3 : year%400 = 0
      · simp only [h1,h2,h3,if_true,decide_true,Bool.or_true,Bool.and_true]
        omega
      · simp [h1,h2,h3]
        omega
    · have h3 : year%400 ≠ 0 := fun h => h2 (hmod h)
      simp [h1,h2,h3]
      omega
  · have h2 : year%100 ≠ 0 := fun h => h1 (hmod' h)
    have h3 : year%400 ≠ 0 := fun h => h2 (hmod h)
    simp [h1,h2,h3]
    omega

theorem findMonth_spec (lens : List Nat) (month n : Nat) (h : n < lens.sum) :
    ∃ k, (findMonth lens month n).1 = month+k ∧ k < lens.length ∧ 1 ≤ (findMonth lens month n).2 ∧
      (findMonth lens month n).2 ≤ lens.getD k 0 ∧
      (lens.take k).sum+((findMonth lens month n).2-1) = n := by
  induction lens generalizing month n with
  | nil => simp at h
  | cons len rest ih =>
    rw [List.sum_cons] at h
    by_cases hn : n < len
    · refine ⟨0,?_⟩
      simp only [findMonth,if_pos hn]
      simp
      omega
    · obtain ⟨k,h1,h2,h3,h4,h5⟩ := ih (month+1) (n-len) (by omega)
      refine ⟨k+1,?_⟩
      simp only [findMonth,if_neg hn]
      refine ⟨by omega,by simpa using h2,h3,by simpa using h4,?_⟩
      rw [List.take_succ_cons,List.sum_cons]
      omega

theorem monthLengths_le (leap : Bool) (k : Nat) : (monthLengths leap).getD k 0 ≤ 31 := by
  match k with
  | 0 | 1 | 2 | 3 | 4 | 5 | 6 | 7 | 8 | 9 | 10 | 11 => cases leap <;> decide
  | k+12 => cases leap <;> simp [monthLengths]

theorem monthDay_spec (leap : Bool) (n : Nat) (h : n < if leap then 366 else 365) :
    1 ≤ (monthDay leap n).1 ∧ (monthDay leap n).1 ≤ 12 ∧ 1 ≤ (monthDay leap n).2 ∧
      (monthDay leap n).2 ≤ daysIn leap (monthDay leap n).1 ∧
      dayNumber leap (monthDay leap n).1 (monthDay leap n).2 = n := by
  have hsum : n < (monthLengths leap).sum := by
    cases leap <;> exact h
  obtain ⟨k,h1,h2,h3,h4,h5⟩ := findMonth_spec (monthLengths leap) 1 n hsum
  have hlen : (monthLengths leap).length = 12 := rfl
  have hk : (monthDay leap n).1-1 = k := by
    unfold monthDay
    omega
  refine ⟨?_,?_,h3,?_,?_⟩
  · unfold monthDay
    omega
  · unfold monthDay
    omega
  · rw [daysIn,hk]
    exact h4
  · rw [dayNumber,hk]
    exact h5

theorem digit_isDigit (n : Nat) : (digit n).isDigit = true := by
  have h : ∀ m < 10, (Char.ofNat (48+m)).isDigit = true := by decide
  exact h _ (Nat.mod_lt _ (by decide))

theorem pad_length (width n : Nat) : (pad width n).length = width := by
  induction width generalizing n with
  | zero => rfl
  | succ width ih => rw [pad,List.length_append,ih,List.length_singleton]

theorem pad_digits (width n : Nat) : ∀ c ∈ pad width n, c.isDigit = true := by
  induction width generalizing n with
  | zero => nofun
  | succ width ih =>
    intro c hc
    rw [pad,List.mem_append,List.mem_singleton] at hc
    rcases hc with hc | rfl
    · exact ih _ c hc
    · exact digit_isDigit n

theorem ofDigitChars_pad (width n : Nat) : Nat.ofDigitChars 10 (pad width n) 0 = n%10^width := by
  have hd (m : Nat) : (digit m).toNat - '0'.toNat = m%10 := by
    have h : ∀ k < 10, (Char.ofNat (48+k)).toNat - '0'.toNat = k := by decide
    exact h _ (Nat.mod_lt _ (by decide))
  induction width generalizing n with
  | zero =>
    rw [pow_zero,Nat.mod_one]
    rfl
  | succ width ih =>
    have hstep : Nat.ofDigitChars 10 (pad width (n/10) ++ [digit n]) 0 =
        10*Nat.ofDigitChars 10 (pad width (n/10)) 0+((digit n).toNat - '0'.toNat) := by
      rw [Nat.ofDigitChars,List.foldl_append]
      rfl
    rw [pad,hstep,ih,hd,pow_succ',Nat.mod_mul]
    omega

theorem readDigits_pad {width n : Nat} (hn : n < 10^width) (rest : List Char) :
    readDigits width (pad width n ++ rest) = some (n,rest) := by
  have htake : (pad width n ++ rest).take width = pad width n := by
    nth_rewrite 1 [← pad_length width n]
    rw [List.take_left]
  have hdrop : (pad width n ++ rest).drop width = rest := by
    nth_rewrite 1 [← pad_length width n]
    rw [List.drop_left]
  have hall : (pad width n).all Char.isDigit = true := List.all_eq_true.mpr (pad_digits width n)
  rw [readDigits,htake,hdrop,if_pos ⟨pad_length width n,hall⟩,ofDigitChars_pad,Nat.mod_eq_of_lt hn]

theorem trimZeros_append (cs : List Char) : ∃ k, cs = trimZeros cs ++ List.replicate k '0' := by
  have hzero : ∀ c ∈ cs.reverse.takeWhile (· = '0'), c = '0' := by
    intro c hc
    simpa using List.mem_takeWhile_imp hc
  refine ⟨(cs.reverse.takeWhile (· = '0')).length,?_⟩
  rw [← List.reverse_inj,List.reverse_append,trimZeros,List.reverse_reverse,List.reverse_replicate,
    ← List.eq_replicate_of_mem hzero,List.takeWhile_append_dropWhile]

theorem nanosecondsOf_trimZeros {cs : List Char} (h : cs.length = 9) :
    nanosecondsOf (trimZeros cs) = Nat.ofDigitChars 10 cs 0 := by
  obtain ⟨k,hk⟩ := trimZeros_append cs
  have hle : k ≤ 9 := by
    have := congrArg List.length hk
    simp only [List.length_append,List.length_replicate] at this
    omega
  have hpad : trimZeros cs ++ List.replicate 9 '0' = cs ++ List.replicate (9-k) '0' := by
    rw [show (9 : Nat) = k+(9-k) by omega,List.replicate_add,← List.append_assoc,← hk]
    simp
  rw [nanosecondsOf,hpad,← h,List.take_left]

theorem readFraction_text (n : Nat) (hn : n < 1000000000) :
    readFraction (fractionText n ++ ['Z']) = some (n,['Z']) := by
  by_cases hz : n = 0
  · subst hz
    rfl
  · have hsub : ∀ c ∈ trimZeros (pad 9 n), c.isDigit = true := by
      intro c hc
      obtain ⟨k,hk⟩ := trimZeros_append (pad 9 n)
      apply pad_digits 9 n c
      rw [hk]
      exact List.mem_append_left _ hc
    have hvalue : nanosecondsOf (trimZeros (pad 9 n)) = n := by
      rw [nanosecondsOf_trimZeros (pad_length 9 n),ofDigitChars_pad,Nat.mod_eq_of_lt (by omega)]
    have hne : trimZeros (pad 9 n) ≠ [] := by
      intro h
      rw [h] at hvalue
      exact hz (hvalue.symm.trans (by decide))
    have htake : (trimZeros (pad 9 n) ++ ['Z']).takeWhile Char.isDigit = trimZeros (pad 9 n) := by
      rw [List.takeWhile_append_of_pos hsub]
      simp
    have hdrop : (trimZeros (pad 9 n) ++ ['Z']).dropWhile Char.isDigit = ['Z'] := by
      rw [List.dropWhile_append_of_pos hsub]
      simp
    rw [fractionText,if_neg hz,List.cons_append,readFraction,htake,hdrop,if_neg hne,hvalue]

theorem readDate_text {year month day : Nat} (hy : year < 10^4) (hm : month < 10^2) (hd : day < 10^2)
    (rest : List Char) : readDate (pad 4 year ++ '-'::(pad 2 month ++ '-'::(pad 2 day ++ rest))) =
      some ((year,month,day),rest) := by
  simp only [readDate,readDigits_pad hy,expect,if_true,readDigits_pad hm,readDigits_pad hd,
    Option.bind_eq_bind,Option.bind_some,Option.pure_def]

theorem readClock_text {hour minute second : Nat} (hh : hour < 10^2) (hm : minute < 10^2)
    (hs : second < 10^2) (rest : List Char) :
    readClock (pad 2 hour ++ ':'::(pad 2 minute ++ ':'::(pad 2 second ++ rest))) =
      some ((hour,minute,second),rest) := by
  simp only [readClock,readDigits_pad hh,expect,if_true,readDigits_pad hm,readDigits_pad hs,
    Option.bind_eq_bind,Option.bind_some,Option.pure_def]

theorem readCivil_text (c : Civil) (hy : c.year < 10^4) (hm : c.month < 10^2) (hd : c.day < 10^2)
    (hh : c.hour < 10^2) (hmin : c.minute < 10^2) (hs : c.second < 10^2)
    (hn : c.nanosecond < 1000000000) : readCivil (c.text ++ ['Z']) = some (c,['Z']) := by
  simp only [readCivil,Civil.text,List.append_assoc,List.cons_append,readDate_text hy hm hd,expect,
    if_true,readClock_text hh hmin hs,readFraction_text _ hn,Option.bind_eq_bind,Option.bind_some,
    Option.pure_def]

theorem daysBeforeYear_mono {a b : Nat} (h : a ≤ b) : daysBeforeYear a ≤ daysBeforeYear b := by
  induction h with
  | refl => exact le_rfl
  | step _ ih =>
    rw [yearLength]
    exact ih.trans (Nat.le_add_right _ _)

theorem civilOf_valid (total : Nat) : (civilOf total).Valid := by
  obtain ⟨hy1,hy2⟩ := yearOf_spec (total/86400000000000)
  rw [yearLength] at hy2
  obtain ⟨hm1,hm2,hd1,hd2,_⟩ := monthDay_spec (isLeap (yearOf (total/86400000000000)))
    (total/86400000000000-daysBeforeYear (yearOf (total/86400000000000))) (by omega)
  have hsec : total/1000000000%86400 < 86400 := Nat.mod_lt _ (by decide)
  refine ⟨hm1,hm2,hd1,hd2,?_,?_,?_⟩
  · change total/1000000000%86400/3600 < 24
    omega
  · exact Nat.mod_lt _ (by decide)
  · exact Nat.mod_lt _ (by decide)

private theorem recompose (q n : Nat) :
    (q/86400*86400+q%86400/3600*3600+q%86400/60%60*60+q%86400%60)*1000000000+n =
      q*1000000000+n := by
  omega

theorem civilOf_total (total : Nat) : (civilOf total).total = total := by
  obtain ⟨hy1,hy2⟩ := yearOf_spec (total/86400000000000)
  rw [yearLength] at hy2
  obtain ⟨_,_,_,_,hnum⟩ := monthDay_spec (isLeap (yearOf (total/86400000000000)))
    (total/86400000000000-daysBeforeYear (yearOf (total/86400000000000))) (by omega)
  have hday : total/86400000000000 = total/1000000000/86400 := by
    rw [Nat.div_div_eq_div_mul]
  unfold Civil.total civilOf
  simp only
  rw [hnum,Nat.add_sub_cancel' hy1,hday,recompose,Nat.div_add_mod']

theorem civilOf_year {total : Nat} (h : total < daysBeforeYear 10000*86400000000000) :
    (civilOf total).year < 10000 := by
  have hle : daysBeforeYear (civilOf total).year ≤ total/86400000000000 :=
    (yearOf_spec (total/86400000000000)).1
  by_contra hge
  have hmono := daysBeforeYear_mono (not_lt.mp hge)
  generalize daysBeforeYear 10000 = d at h hmono
  omega

theorem daysIn_le (leap : Bool) (month : Nat) : daysIn leap month ≤ 31 :=
  monthLengths_le leap (month-1)

/-- A timestamp reads back as the instant it was written for. -/
theorem parse_format {time : Int} {text : List Char} (h : format time = some text) :
    parse text = some time := by
  unfold format at h
  simp only at h
  split at h
  · next hrange =>
    cases h
    obtain ⟨total,ht⟩ := Int.eq_ofNat_of_zero_le hrange.1
    rw [ht] at hrange ⊢
    rw [Int.toNat_natCast]
    have hvalid := civilOf_valid total
    have hyear : (civilOf total).year < 10000 := civilOf_year (by omega)
    have hday := daysIn_le (isLeap (civilOf total).year) (civilOf total).month
    obtain ⟨hm1,hm2,hd1,hd2,hh,hmin,hs⟩ := id hvalid
    have hread := readCivil_text (civilOf total) hyear (by omega) (by omega) (by omega) (by omega)
      (by omega) (Nat.mod_lt _ (by decide))
    simp only [parse,hread,readZone,Option.bind_eq_bind,Option.bind_some,hvalid,true_and,if_true,
      civilOf_total,Option.pure_def,Option.some.injEq]
    omega
  · cases h

theorem fractionText_chars (n : Nat) : ∀ c ∈ fractionText n, c.isDigit = true ∨ c = '.' := by
  intro c hc
  unfold fractionText at hc
  split at hc
  · cases hc
  · rcases List.mem_cons.mp hc with rfl | hc
    · exact .inr rfl
    · left
      obtain ⟨k,hk⟩ := trimZeros_append (pad 9 n)
      apply pad_digits 9 n c
      rw [hk]
      exact List.mem_append_left _ hc

theorem format_chars {time : Int} {text : List Char} (h : format time = some text) :
    ∀ c ∈ text, c.isDigit = true ∨ c ∈ ['-','T',':','.','Z'] := by
  unfold format at h
  simp only at h
  split at h
  · cases h
    intro c hc
    have hpad (width n : Nat) (hm : c ∈ pad width n) : c.isDigit = true := pad_digits width n c hm
    have hfraction (n : Nat) (hm : c ∈ fractionText n) := fractionText_chars n c hm
    simp only [Civil.text,List.mem_append,List.mem_cons,List.not_mem_nil,or_false] at hc ⊢
    grind
  · cases h

end Rfc3339
