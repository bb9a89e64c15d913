import Mathlib

/-!
# JSON numbers and strings

A number is kept as the digits of its parts and a string as its pieces between the quotes, so that
what was read can be written again character by character.
-/

namespace Json

structure Number where
  negative : Bool
  whole : List Char
  fraction : List Char
  exponent : Option (Char × List Char × List Char)
deriving DecidableEq, Repr

namespace Number

def exponentText : Option (Char × List Char × List Char) → List Char
  | none => []
  | some (letter,sign,digits) => letter::(sign ++ digits)

def fractionText (fraction : List Char) : List Char :=
  if fraction = [] then [] else '.'::fraction

def text (n : Number) : List Char :=
  (if n.negative then ['-'] else []) ++ (n.whole ++ (fractionText n.fraction ++ exponentText n.exponent))

structure Formed (n : Number) : Prop where
  whole : n.whole = ['0'] ∨ ∃ c cs, n.whole = c::cs ∧ c ≠ '0' ∧ (c::cs).all Char.isDigit = true
  fraction : n.fraction.all Char.isDigit = true
  exponent : ∀ letter sign digits, n.exponent = some (letter,sign,digits) →
    (letter = 'e' ∨ letter = 'E') ∧ (sign = [] ∨ sign = ['+'] ∨ sign = ['-']) ∧ digits ≠ [] ∧
      digits.all Char.isDigit = true

end Number

/-- Nothing that would lengthen a number comes next. -/
def Stops (rest : List Char) : Prop :=
  ∀ c, rest.head? = some c → c.isDigit = false ∧ c ≠ '.' ∧ c ≠ 'e' ∧ c ≠ 'E'

def scanWhole : List Char → Option (List Char × List Char)
  | [] => none
  | c::rest =>
    if c = '0' then some (['0'],rest)
    else if c.isDigit then some (c::rest.takeWhile Char.isDigit,rest.dropWhile Char.isDigit)
    else none

def scanFraction : List Char → Option (List Char × List Char)
  | '.'::rest =>
    if rest.takeWhile Char.isDigit = [] then none
    else some (rest.takeWhile Char.isDigit,rest.dropWhile Char.isDigit)
  | rest => some ([],rest)

def scanSign : List Char → List Char × List Char
  | '+'::rest => (['+'],rest)
  | '-'::rest => (['-'],rest)
  | rest => ([],rest)

def scanExponent : List Char → Option (Option (Char × List Char × List Char) × List Char)
  | [] => some (none,[])
  | c::rest =>
    if c = 'e' ∨ c = 'E' then
      let (sign,rest) := scanSign rest
      if rest.takeWhile Char.isDigit = [] then none
      else some (some (c,sign,rest.takeWhile Char.isDigit),rest.dropWhile Char.isDigit)
    else some (none,c::rest)

def scanMinus : List Char → Bool × List Char
  | '-'::rest => (true,rest)
  | rest => (false,rest)

def scanNumber (input : List Char) : Option (Number × List Char) := do
  let (negative,rest) := scanMinus input
  let (whole,rest) ← scanWhole rest
  let (fraction,rest) ← scanFraction rest
  let (exponent,rest) ← scanExponent rest
  return (⟨negative,whole,fraction,exponent⟩,rest)

theorem takeWhile_run {ds rest : List Char} (hd : ds.all Char.isDigit = true)
    (hr : ∀ c, rest.head? = some c → c.isDigit = false) :
    (ds ++ rest).takeWhile Char.isDigit = ds ∧ (ds ++ rest).dropWhile Char.isDigit = rest := by
  induction ds with
  | nil =>
    cases rest with
    | nil => exact ⟨rfl,rfl⟩
    | cons c cs =>
      have hc := hr c rfl
      simp [hc]
  | cons c cs ih =>
    simp only [List.all_cons,Bool.and_eq_true] at hd
    obtain ⟨h1,h2⟩ := ih hd.2
    simp [hd.1,h1,h2]

theorem scanExponent_text {rest : List Char} (hr : Stops rest)
    (e : Option (Char × List Char × List Char))
    (he : ∀ letter sign digits, e = some (letter,sign,digits) →
      (letter = 'e' ∨ letter = 'E') ∧ (sign = [] ∨ sign = ['+'] ∨ sign = ['-']) ∧ digits ≠ [] ∧
        digits.all Char.isDigit = true) :
    scanExponent (Number.exponentText e ++ rest) = some (e,rest) := by
  cases e with
  | none =>
    cases rest with
    | nil => rfl
    | cons c cs =>
      have hc := hr c rfl
      simp [Number.exponentText,scanExponent,hc]
  | some x =>
    obtain ⟨letter,sign,digits⟩ := x
    obtain ⟨hl,hs,hne,hd⟩ := he letter sign digits rfl
    obtain ⟨ht,hdrop⟩ := takeWhile_run hd (fun c hc => (hr c hc).1)
    have hsign : scanSign (sign ++ (digits ++ rest)) = (sign,digits ++ rest) := by
      rcases hs with rfl | rfl | rfl
      · cases digits with
        | nil => exact absurd rfl hne
        | cons d ds =>
          simp only [List.all_cons,Bool.and_eq_true] at hd
          have hplus : d ≠ '+' := by
            intro h
            simp [h] at hd
          have hminus : d ≠ '-' := by
            intro h
            simp [h] at hd
          simp only [List.nil_append,List.cons_append]
          unfold scanSign
          split
          · next h => simp only [List.cons.injEq] at h; exact absurd h.1 hplus
          · next h => simp only [List.cons.injEq] at h; exact absurd h.1 hminus
          · rfl
      · rfl
      · rfl
    simp only [Number.exponentText,List.cons_append,List.append_assoc,scanExponent,hl,if_true,hsign,
      ht,hdrop,hne,if_false]

theorem fractionText_head (fraction : List Char) (e : Option (Char × List Char × List Char))
    (he : ∀ letter sign digits, e = some (letter,sign,digits) → letter = 'e' ∨ letter = 'E')
    {rest : List Char} (hr : Stops rest) (c : Char)
    (hc : (Number.fractionText fraction ++ (Number.exponentText e ++ rest)).head? = some c) :
    c.isDigit = false := by
  by_cases hf : fraction = []
  · cases e with
    | none =>
      simp only [Number.fractionText,hf,if_true,Number.exponentText,List.nil_append] at hc
      exact (hr c hc).1
    | some x =>
      obtain ⟨letter,sign,digits⟩ := x
      have hl := he letter sign digits rfl
      simp only [Number.fractionText,hf,if_true,Number.exponentText,List.nil_append,List.cons_append,
        List.head?_cons,Option.some.injEq] at hc
      subst c
      rcases hl with rfl | rfl <;> decide
  · simp only [Number.fractionText,hf,if_false,List.cons_append,List.head?_cons,
      Option.some.injEq] at hc
    subst c
    decide

theorem scanFraction_text (fraction : List Char) (hf : fraction.all Char.isDigit = true)
    {rest : List Char} (hd : ∀ c, rest.head? = some c → c.isDigit = false ∧ c ≠ '.') :
    scanFraction (Number.fractionText fraction ++ rest) = some (fraction,rest) := by
  by_cases hz : fraction = []
  · subst hz
    simp only [Number.fractionText,if_true,List.nil_append]
    unfold scanFraction
    split
    · next h => exact absurd rfl (hd '.' rfl).2
    · rfl
  · obtain ⟨ht,hdrop⟩ := takeWhile_run hf (fun c hc => (hd c hc).1)
    simp only [Number.fractionText,hz,if_false,List.cons_append,scanFraction,ht,hdrop]

theorem scanWhole_text (whole : List Char)
    (hw : whole = ['0'] ∨ ∃ c cs, whole = c::cs ∧ c ≠ '0' ∧ (c::cs).all Char.isDigit = true)
    {rest : List Char} (hd : ∀ c, rest.head? = some c → c.isDigit = false) :
    scanWhole (whole ++ rest) = some (whole,rest) := by
  rcases hw with rfl | ⟨c,cs,rfl,hc,hall⟩
  · rfl
  · simp only [List.all_cons,Bool.and_eq_true] at hall
    obtain ⟨ht,hdrop⟩ := takeWhile_run hall.2 hd
    simp only [List.cons_append,scanWhole,hc,if_false,hall.1,if_true,ht,hdrop]

theorem scanNumber_text {n : Number} (hn : n.Formed) {rest : List Char} (hr : Stops rest) :
    scanNumber (n.text ++ rest) = some (n,rest) := by
  have hexp := scanExponent_text hr n.exponent hn.exponent
  have hletter (letter : Char) (sign digits : List Char) (h : n.exponent = some (letter,sign,digits)) :
      letter = 'e' ∨ letter = 'E' := (hn.exponent letter sign digits h).1
  have hfrac : scanFraction (Number.fractionText n.fraction ++ (Number.exponentText n.exponent ++ rest)) =
      some (n.fraction,Number.exponentText n.exponent ++ rest) := by
    apply scanFraction_text _ hn.fraction
    intro c hc
    cases he : n.exponent with
    | none =>
      rw [he] at hc
      exact ⟨(hr c hc).1,(hr c hc).2.1⟩
    | some x =>
      obtain ⟨letter,sign,digits⟩ := x
      rw [he] at hc
      simp only [Number.exponentText,List.cons_append,List.head?_cons,Option.some.injEq] at hc
      subst c
      rcases hletter letter sign digits he with rfl | rfl <;> decide
  have hwhole := scanWhole_text n.whole hn.whole
    (fun c hc => fractionText_head n.fraction n.exponent hletter hr c hc)
  have hminus : scanMinus (n.text ++ rest) = (n.negative,n.whole ++
      (Number.fractionText n.fraction ++ (Number.exponentText n.exponent ++ rest))) := by
    unfold Number.text
    cases n.negative with
    | true => simp [scanMinus]
    | false =>
      simp only [Bool.false_eq_true,if_false,List.nil_append,List.append_assoc]
      rcases hn.whole with hw | ⟨c,cs,hw,_,hall⟩
      · rw [hw]
        rfl
      · rw [hw]
        simp only [List.all_cons,Bool.and_eq_true] at hall
        have hm : c ≠ '-' := by
          intro h
          simp [h] at hall
        simp only [List.cons_append]
        unfold scanMinus
        split
        · next h => simp only [List.cons.injEq] at h; exact absurd h.1 hm
        · rfl
  simp only [scanNumber,hminus,hwhole,hfrac,hexp,Option.bind_eq_bind,Option.bind_some,Option.pure_def]

theorem scanWhole_formed {input whole rest : List Char} (h : scanWhole input = some (whole,rest)) :
    whole = ['0'] ∨ ∃ c cs, whole = c::cs ∧ c ≠ '0' ∧ (c::cs).all Char.isDigit = true := by
  cases input with
  | nil => cases h
  | cons c cs =>
    simp only [scanWhole] at h
    split at h
    · left
      simpa using (Prod.mk.inj (Option.some.inj h)).1.symm
    · next hc =>
      split at h
      · next hd =>
        right
        refine ⟨c,_,(Prod.mk.inj (Option.some.inj h)).1.symm,hc,?_⟩
        simp [hd,List.all_takeWhile]
      · cases h

theorem scanFraction_formed {input fraction rest : List Char}
    (h : scanFraction input = some (fraction,rest)) : fraction.all Char.isDigit = true := by
  unfold scanFraction at h
  split at h
  · split at h
    · cases h
    · cases h
      exact List.all_takeWhile
  · cases h
    rfl

theorem scanExponent_formed {input rest : List Char} {e : Option (Char × List Char × List Char)}
    (h : scanExponent input = some (e,rest)) (letter : Char) (sign digits : List Char)
    (he : e = some (letter,sign,digits)) :
    (letter = 'e' ∨ letter = 'E') ∧ (sign = [] ∨ sign = ['+'] ∨ sign = ['-']) ∧ digits ≠ [] ∧
      digits.all Char.isDigit = true := by
  cases input with
  | nil =>
    cases h
    cases he
  | cons c cs =>
    simp only [scanExponent] at h
    split at h
    · next hc =>
      split at h
      · cases h
      · next hne =>
        cases h
        cases he
        refine ⟨hc,?_,hne,List.all_takeWhile⟩
        unfold scanSign
        split <;> simp
    · cases h
      cases he

theorem scanNumber_formed {input rest : List Char} {n : Number}
    (h : scanNumber input = some (n,rest)) : n.Formed := by
  simp only [scanNumber,Option.bind_eq_bind,Option.pure_def] at h
  obtain ⟨⟨whole,r1⟩,hw,h⟩ := Option.bind_eq_some_iff.mp h
  obtain ⟨⟨fraction,r2⟩,hf,h⟩ := Option.bind_eq_some_iff.mp h
  obtain ⟨⟨exponent,r3⟩,he,h⟩ := Option.bind_eq_some_iff.mp h
  cases h
  exact ⟨scanWhole_formed hw,scanFraction_formed hf,scanExponent_formed he⟩

/-- What stands between the quotes of a string: a character, an escaped one, or a code unit given by
four hexadecimal digits. -/
inductive Piece where
  | plain (c : Char)
  | escape (c : Char)
  | code (a b c d : Char)
deriving DecidableEq, Repr

def hexDigit (n : Nat) : Char := if n < 10 then Char.ofNat (48+n) else Char.ofNat (87+n)

def hexValue (c : Char) : Option Nat :=
  if c.isDigit then some (c.toNat-48)
  else if 'a' ≤ c ∧ c ≤ 'f' then some (c.toNat-87)
  else if 'A' ≤ c ∧ c ≤ 'F' then some (c.toNat-55)
  else none

theorem hexValue_hexDigit : ∀ n < 16, hexValue (hexDigit n) = some n := by decide

def escapes : List Char := ['\x22','\x5c','/','b','f','n','r','t']

namespace Piece

def text : Piece → List Char
  | .plain c => [c]
  | .escape c => ['\x5c',c]
  | .code a b c d => ['\x5c','u',a,b,c,d]

def Formed : Piece → Prop
  | .plain c => c ≠ '\x22' ∧ c ≠ '\x5c' ∧ 32 ≤ c.toNat
  | .escape c => c ∈ escapes
  | .code a b c d => ∀ x ∈ [a,b,c,d], (hexValue x).isSome = true

instance (p : Piece) : Decidable p.Formed := by
  cases p <;> unfold Formed <;> infer_instance

end Piece

def scanString : List Char → Option (List Piece × List Char)
  | [] => none
  | '\x22'::rest => some ([],rest)
  | '\x5c' :: 'u' :: a::b::c::d::rest =>
    if Piece.Formed (.code a b c d) then
      (scanString rest).map fun (ps,r) => (.code a b c d::ps,r)
    else none
  | '\x5c'::c::rest =>
    if Piece.Formed (.escape c) then (scanString rest).map fun (ps,r) => (.escape c::ps,r) else none
  | c::rest =>
    if Piece.Formed (.plain c) then (scanString rest).map fun (ps,r) => (.plain c::ps,r) else none

def stringText (ps : List Piece) : List Char := ps.flatMap Piece.text

theorem scanString_piece {p : Piece} (hp : p.Formed) (rest : List Char) :
    scanString (p.text ++ rest) = (scanString rest).map fun (ps,r) => (p::ps,r) := by
  cases p with
  | plain c =>
    have hq := hp.1
    have hb := hp.2.1
    simp only [Piece.text,List.cons_append,List.nil_append]
    rw [scanString.eq_def]
    split
    · next h => cases h
    · next h => simp only [List.cons.injEq] at h; exact absurd h.1 hq
    · next h => simp only [List.cons.injEq] at h; exact absurd h.1 hb
    · next h => simp only [List.cons.injEq] at h; exact absurd h.1 hb
    · next h =>
      simp only [List.cons.injEq] at h
      obtain ⟨rfl,rfl⟩ := h
      rw [if_pos hp]
  | escape c =>
    have hu : c ≠ 'u' := by
      intro h
      subst h
      exact absurd hp (by decide)
    simp only [Piece.text,List.cons_append,List.nil_append]
    rw [scanString.eq_def]
    split
    · next h => cases h
    · next h => exact absurd (List.cons.inj h).1 (by decide)
    · next h => simp only [List.cons.injEq] at h; exact absurd h.2.1 hu
    · next h =>
      simp only [List.cons.injEq,true_and] at h
      obtain ⟨rfl,rfl⟩ := h
      rw [if_pos hp]
    · next x r _ _ hesc h =>
      simp only [List.cons.injEq] at h
      exact absurd h.2.symm (hesc c rest h.1.symm)
  | code a b c d =>
    simp only [Piece.text,List.cons_append,List.nil_append]
    rw [scanString,if_pos hp]

theorem scanString_text (ps : List Piece) (hp : ∀ p ∈ ps, p.Formed) (rest : List Char) :
    scanString (stringText ps ++ '\x22'::rest) = some (ps,rest) := by
  induction ps with
  | nil => rfl
  | cons p ps ih =>
    have hps : ∀ q ∈ ps, q.Formed := fun q hq => hp q (List.mem_cons_of_mem _ hq)
    rw [stringText,List.flatMap_cons,List.append_assoc,scanString_piece (hp p List.mem_cons_self)]
    rw [show ps.flatMap Piece.text = stringText ps from rfl,ih hps]
    rfl

theorem scanString_formed {input rest : List Char} {ps : List Piece}
    (h : scanString input = some (ps,rest)) : ∀ p ∈ ps, p.Formed := by
  induction input using scanString.induct generalizing ps with
  | case1 => cases h
  | case2 r =>
    simp only [scanString,Option.some.injEq,Prod.mk.injEq] at h
    simp [← h.1]
  | case3 a b c d r hf ih =>
    rw [scanString,if_pos hf] at h
    obtain ⟨⟨qs,r'⟩,hq,he⟩ := Option.map_eq_some_iff.mp h
    cases he
    simpa [hf] using ih hq
  | case4 a b c d r hf =>
    rw [scanString,if_neg hf] at h
    cases h
  | case5 c r hu hf ih =>
    rw [scanString,if_pos hf] at h
    · obtain ⟨⟨qs,r'⟩,hq,he⟩ := Option.map_eq_some_iff.mp h
      cases he
      simpa [hf] using ih hq
    · exact hu
  | case6 c r hu hf =>
    rw [scanString,if_neg hf] at h
    · cases h
    · exact hu
  | case7 c r hq hu he hf ih =>
    rw [scanString,if_pos hf] at h
    · obtain ⟨⟨qs,r'⟩,hs,heq⟩ := Option.map_eq_some_iff.mp h
      cases heq
      simpa [hf] using ih hs
    · exact hq
    · exact hu
    · exact he
  | case8 c r hq hu he hf =>
    rw [scanString,if_neg hf] at h
    · cases h
    · exact hq
    · exact hu
    · exact he

def codeUnit (a b c d : Char) : Nat :=
  (hexValue a).getD 0*4096+(hexValue b).getD 0*256+(hexValue c).getD 0*16+(hexValue d).getD 0

def replacement : Char := Char.ofNat 0xfffd

def surrogatePair (hi lo : Nat) : Option Char :=
  if 0xd800 ≤ hi ∧ hi < 0xdc00 ∧ 0xdc00 ≤ lo ∧ lo < 0xe000 then
    some (Char.ofNat ((hi-0xd800)*1024+(lo-0xdc00)+0x10000))
  else none

def unescape (c : Char) : Char :=
  if c = 'b' then '\x08' else if c = 'f' then '\x0c' else if c = 'n' then '\n'
  else if c = 'r' then '\r' else if c = 't' then '\t' else c

/-- The characters a string stands for. A lone surrogate reads as the replacement character. -/
def unquote : List Piece → List Char
  | [] => []
  | .plain c::rest => c::unquote rest
  | .escape c::rest => unescape c::unquote rest
  | .code a b c d::.code a' b' c' d'::rest =>
    if 0xd800 ≤ codeUnit a b c d ∧ codeUnit a b c d < 0xe000 then
      match surrogatePair (codeUnit a b c d) (codeUnit a' b' c' d') with
      | some ch => ch::unquote rest
      | none => replacement::unquote (.code a' b' c' d'::rest)
    else Char.ofNat (codeUnit a b c d)::unquote (.code a' b' c' d'::rest)
  | .code a b c d::rest =>
    if 0xd800 ≤ codeUnit a b c d ∧ codeUnit a b c d < 0xe000 then replacement::unquote rest
    else Char.ofNat (codeUnit a b c d)::unquote rest

def codePiece (c : Char) : Piece :=
  .code (hexDigit (c.toNat/4096%16)) (hexDigit (c.toNat/256%16)) (hexDigit (c.toNat/16%16))
    (hexDigit (c.toNat%16))

/-- Characters that are escaped so that the text can stand inside HTML and JavaScript. -/
def htmlUnsafe : List Char := ['<','>','&',Char.ofNat 0x2028,Char.ofNat 0x2029]

def quoteChar (c : Char) : Piece :=
  if c = '\x22' ∨ c = '\x5c' then .escape c
  else if c = '\x08' then .escape 'b' else if c = '\x0c' then .escape 'f'
  else if c = '\n' then .escape 'n' else if c = '\r' then .escape 'r'
  else if c = '\t' then .escape 't'
  else if c.toNat < 32 ∨ c ∈ htmlUnsafe then codePiece c
  else .plain c

def quote (cs : List Char) : List Piece := cs.map quoteChar

def Piece.escapeHTML : Piece → Piece
  | .plain c => if c ∈ htmlUnsafe then codePiece c else .plain c
  | p => p

theorem codePiece_formed (c : Char) : (codePiece c).Formed := by
  have hx (n : Nat) : (hexValue (hexDigit (n%16))).isSome = true := by
    rw [hexValue_hexDigit _ (Nat.mod_lt _ (by decide))]
    rfl
  intro x hm
  simp only [List.mem_cons,List.not_mem_nil,or_false] at hm
  rcases hm with rfl | rfl | rfl | rfl <;> exact hx _

theorem quoteChar_formed (c : Char) : (quoteChar c).Formed := by
  unfold quoteChar
  split
  · next h => rcases h with rfl | rfl <;> decide
  split
  · decide
  split
  · decide
  split
  · decide
  split
  · decide
  split
  · decide
  split
  · exact codePiece_formed c
  · next hq _ _ _ _ _ hlow =>
    simp only [not_or] at hq hlow
    exact ⟨hq.1,hq.2,by omega⟩

theorem escapeHTML_formed {p : Piece} (hp : p.Formed) : p.escapeHTML.Formed := by
  cases p with
  | plain c =>
    change (if c ∈ htmlUnsafe then codePiece c else Piece.plain c).Formed
    split
    · exact codePiece_formed c
    · exact hp
  | escape c => exact hp
  | code a b c d => exact hp

theorem codeUnit_codePiece (c : Char) (h : c.toNat < 65536) :
    codeUnit (hexDigit (c.toNat/4096%16)) (hexDigit (c.toNat/256%16)) (hexDigit (c.toNat/16%16))
      (hexDigit (c.toNat%16)) = c.toNat := by
  have hx (n : Nat) : (hexValue (hexDigit (n%16))).getD 0 = n%16 := by
    rw [hexValue_hexDigit _ (Nat.mod_lt _ (by decide))]
    rfl
  unfold codeUnit
  rw [hx,hx,hx,hx]
  omega

theorem unquote_codePiece (c : Char) (h : c.toNat < 0xd800) (rest : List Piece) :
    unquote (codePiece c::rest) = c::unquote rest := by
  have hunit := codeUnit_codePiece c (by omega)
  have hlow : ¬(0xd800 ≤ c.toNat ∧ c.toNat < 0xe000) := by omega
  unfold codePiece
  cases rest with
  | nil => simp only [unquote,hunit,if_neg hlow,Char.ofNat_toNat]
  | cons p ps =>
    cases p with
    | plain x => simp only [unquote,hunit,if_neg hlow,Char.ofNat_toNat]
    | escape x => simp only [unquote,hunit,if_neg hlow,Char.ofNat_toNat]
    | code a b x d => simp only [unquote,hunit,if_neg hlow,Char.ofNat_toNat]

theorem htmlUnsafe_low : ∀ c ∈ htmlUnsafe, c.toNat < 0xd800 := by
  simp [htmlUnsafe]

theorem unquote_quoteChar (c : Char) (rest : List Piece) :
    unquote (quoteChar c::rest) = c::unquote rest := by
  unfold quoteChar
  split
  · next h =>
    rw [unquote]
    rcases h with rfl | rfl <;> rfl
  split
  · next h => subst h; rfl
  split
  · next h => subst h; rfl
  split
  · next h => subst h; rfl
  split
  · next h => subst h; rfl
  split
  · next h => subst h; rfl
  split
  · next h =>
    apply unquote_codePiece
    rcases h with h | h
    · omega
    · exact htmlUnsafe_low c h
  · rfl

theorem unquote_quote (cs : List Char) : unquote (quote cs) = cs := by
  induction cs with
  | nil => rfl
  | cons c cs ih =>
    rw [quote,List.map_cons,unquote_quoteChar]
    rw [show cs.map quoteChar = quote cs from rfl,ih]

end Json
