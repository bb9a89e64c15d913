import Mathlib.Data.List.DropRight
import Mathlib.Data.UInt

/-!
# Internet addresses as text

The readers of IP addresses, of networks in prefix notation and of host-port pairs. An address is four
or sixteen bytes; the sixteen-byte form of a four-byte address has a fixed front.
-/

namespace Net

/-! ## Addresses -/

/-- The octets of a dotted address. The last two arguments are the value and the number of the digits
read of the current octet. -/
def parseIPv4Fields (fields : List UInt8) (val digLen : Nat) : List Char → Option (List UInt8)
  | [] => if fields.length < 3 then none else some (fields ++ [UInt8.ofNat val])
  | c::cs =>
    if c.isDigit then
      if digLen = 1 ∧ val = 0 then none
      else if val*10+(c.toNat - '0'.toNat) > 255 then none
      else parseIPv4Fields fields (val*10+(c.toNat - '0'.toNat)) (digLen+1) cs
    else if c = '.' then
      if digLen = 0 ∨ cs = [] then none
      else if fields.length = 3 then none
      else parseIPv4Fields (fields ++ [UInt8.ofNat val]) 0 0 cs
    else none

def parseIPv4 (cs : List Char) : Option (List UInt8) := parseIPv4Fields [] 0 0 cs

def hexValue (c : Char) : Option Nat :=
  if '0' ≤ c ∧ c ≤ '9' then some (c.toNat - '0'.toNat)
  else if 'a' ≤ c ∧ c ≤ 'f' then some (c.toNat - 'a'.toNat+10)
  else if 'A' ≤ c ∧ c ≤ 'F' then some (c.toNat - 'A'.toNat+10)
  else none

def isHex (c : Char) : Bool := (hexValue c).isSome

def hexGroup (cs : List Char) : Nat := cs.foldl (fun acc c => acc*16+(hexValue c).getD 0) 0

/-- The bytes before the end of the text and the place of the ellipsis among them. The first argument
counts the groups that still fit. -/
def parseIPv6Groups : Nat → List UInt8 → Option Nat → List Char → Option (List UInt8 × Option Nat)
  | 0,ip,ellipsis,cs => if cs = [] then some (ip,ellipsis) else none
  | groups+1,ip,ellipsis,cs =>
    let digits := cs.takeWhile isHex
    let ip' := ip ++ [UInt8.ofNat (hexGroup digits/256),UInt8.ofNat (hexGroup digits)]
    if digits = [] ∨ 4 < digits.length then none
    else
      match cs.dropWhile isHex with
      | [] => some (ip',ellipsis)
      | '.'::_ =>
        if ellipsis = none ∧ ip.length ≠ 12 ∨ 16 < ip.length+4 then none
        else (parseIPv4 cs).map fun fields => (ip ++ fields,ellipsis)
      | [':'] => none
      | ':' :: ':' :: rest =>
        if ellipsis.isSome then none
        else if rest = [] then some (ip',some ip'.length)
        else parseIPv6Groups groups ip' (some ip'.length) rest
      | ':'::rest => parseIPv6Groups groups ip' ellipsis rest
      | _ => none

/-- The ellipsis stands for at least one group of zeros. -/
def expandEllipsis : List UInt8 × Option Nat → Option (List UInt8)
  | (ip,none) => if ip.length < 16 then none else some ip
  | (ip,some place) =>
    if ip.length < 16 then
      some (ip.take place ++ List.replicate (16-ip.length) 0 ++ ip.drop place)
    else none

def parseIPv6 : List Char → Option (List UInt8)
  | [':',':'] => some (List.replicate 16 0)
  | ':' :: ':' :: rest => (parseIPv6Groups 8 [] (some 0) rest).bind expandEllipsis
  | cs => (parseIPv6Groups 8 [] none cs).bind expandEllipsis

/-- An address, of four bytes or of sixteen. One with a zone is refused by every caller. -/
def parseAddr (cs : List Char) : Option (List UInt8) :=
  match cs.find? fun c => c = '.' || c = ':' || c = '%' with
  | some '.' => parseIPv4 cs
  | some ':' => if '%' ∈ cs then none else parseIPv6 cs
  | _ => none

def v4InV6Prefix : List UInt8 := [0,0,0,0,0,0,0,0,0,0,0xff,0xff]

def as16 (ip : List UInt8) : List UInt8 := if ip.length = 4 then v4InV6Prefix ++ ip else ip

def to4 (ip : List UInt8) : Option (List UInt8) :=
  if ip.length = 4 then some ip
  else if ip.length = 16 ∧ ip.take 12 = v4InV6Prefix then some (ip.drop 12)
  else none

def parseIP (s : String) : Option (List UInt8) := (parseAddr s.toList).map as16

def isAddrChar (c : Char) : Bool := isHex c || c = '.' || c = ':'

theorem isAddrChar_range {c : Char} (h : isAddrChar c = true) :
    c.toNat = 46 ∨ (48 ≤ c.toNat ∧ c.toNat ≤ 58) ∨ (65 ≤ c.toNat ∧ c.toNat ≤ 70) ∨
      (97 ≤ c.toNat ∧ c.toNat ≤ 102) := by
  simp only [isAddrChar,Bool.or_eq_true,decide_eq_true_eq] at h
  rcases h with (h | rfl) | rfl
  · unfold isHex hexValue at h
    simp only [Char.le_def,UInt32.le_iff_toNat_le] at h
    split at h
    · next hc =>
      change 48 ≤ c.toNat ∧ c.toNat ≤ 57 at hc
      omega
    · split at h
      · next hc =>
        change 97 ≤ c.toNat ∧ c.toNat ≤ 102 at hc
        omega
      · split at h
        · next hc =>
          change 65 ≤ c.toNat ∧ c.toNat ≤ 70 at hc
          omega
        · cases h
  · decide
  · decide

theorem isHex_of_isDigit {c : Char} (h : c.isDigit = true) : isHex c = true := by
  have hrange : '0' ≤ c ∧ c ≤ '9' := by
    simpa [Char.isDigit,Char.le_def] using h
  simp [isHex,hexValue,hrange]

theorem parseIPv4Fields_chars {fields ip : List UInt8} {val digLen : Nat} {cs : List Char}
    (h : parseIPv4Fields fields val digLen cs = some ip) : ∀ c ∈ cs, isAddrChar c = true := by
  induction cs generalizing fields val digLen with
  | nil => simp
  | cons c cs ih =>
    rw [List.forall_mem_cons]
    unfold parseIPv4Fields at h
    by_cases hdigit : c.isDigit = true
    · rw [if_pos hdigit] at h
      split at h
      · cases h
      · split at h
        · cases h
        · exact ⟨by simp [isAddrChar,isHex_of_isDigit hdigit],ih h⟩
    · by_cases hdot : c = '.'
      · rw [if_neg hdigit,if_pos hdot] at h
        split at h
        · cases h
        · split at h
          · cases h
          · exact ⟨by simp [isAddrChar,hdot],ih h⟩
      · rw [if_neg hdigit,if_neg hdot] at h
        cases h

theorem parseIPv6Groups_chars {groups : Nat} {ip : List UInt8} {ellipsis : Option Nat} {cs : List Char}
    {result : List UInt8 × Option Nat} (h : parseIPv6Groups groups ip ellipsis cs = some result) :
    ∀ c ∈ cs, isAddrChar c = true := by
  induction groups generalizing ip ellipsis cs with
  | zero =>
    simp only [parseIPv6Groups] at h
    split at h
    · next hnil => simp [hnil]
    · cases h
  | succ groups ih =>
    simp only [parseIPv6Groups] at h
    split at h
    · cases h
    · have hsplit := List.takeWhile_append_dropWhile (p := isHex) (l := cs)
      have hdigits : ∀ c ∈ cs.takeWhile isHex, isAddrChar c = true := by
        intro c hc
        simp [isAddrChar,List.mem_takeWhile_imp hc]
      have hrest : ∀ c ∈ cs.dropWhile isHex, isAddrChar c = true := by
        split at h
        · next hnil => simp [hnil]
        · next hdot =>
          split at h
          · cases h
          · obtain ⟨fields,hfields,_⟩ := Option.map_eq_some_iff.mp h
            intro c hc
            exact parseIPv4Fields_chars hfields c ((List.dropWhile_suffix isHex).subset hc)
        · cases h
        · next rest hcolons =>
          split at h
          · cases h
          · have htail : ∀ c ∈ rest, isAddrChar c = true := by
              split at h
              · next hnil => simp [hnil]
              · exact ih h
            rw [hcolons]
            simpa [isAddrChar] using htail
        · next rest _ _ hcolon =>
          rw [hcolon]
          simpa [isAddrChar] using ih h
        · cases h
      intro c hc
      rw [← hsplit,List.mem_append] at hc
      exact hc.elim (hdigits c) (hrest c)

theorem parseIPv6_chars {cs : List Char} {ip : List UInt8} (h : parseIPv6 cs = some ip) :
    ∀ c ∈ cs, isAddrChar c = true := by
  unfold parseIPv6 at h
  split at h
  · simp [isAddrChar]
  · obtain ⟨result,hgroups,_⟩ := Option.bind_eq_some_iff.mp h
    simpa [isAddrChar] using parseIPv6Groups_chars hgroups
  · obtain ⟨result,hgroups,_⟩ := Option.bind_eq_some_iff.mp h
    exact parseIPv6Groups_chars hgroups

theorem parseIP_chars {s : String} {ip : List UInt8} (h : parseIP s = some ip) :
    ∀ c ∈ s.toList, isAddrChar c = true := by
  obtain ⟨addr,haddr,_⟩ := Option.map_eq_some_iff.mp h
  unfold parseAddr at haddr
  split at haddr
  · exact parseIPv4Fields_chars haddr
  · split at haddr
    · cases haddr
    · exact parseIPv6_chars haddr
  · cases haddr

/-! ## Networks -/

structure IPNet where
  ip : List UInt8
  mask : List UInt8
deriving DecidableEq, Repr

def cidrMask : Nat → Nat → List UInt8
  | 0,_ => []
  | bytes+1,ones =>
    if 8 ≤ ones then 0xff::cidrMask bytes (ones-8)
    else UInt8.ofNat (256-2^(8-ones))::cidrMask bytes 0

def maskIP (ip mask : List UInt8) : List UInt8 := ip.zipWith (· &&& ·) mask

def prefixLength (width : Nat) (cs : List Char) : Option Nat :=
  if cs = [] ∨ cs.all Char.isDigit = false then none
  else if width < Nat.ofDigitChars 10 cs 0 then none
  else some (Nat.ofDigitChars 10 cs 0)

def parseCIDR (s : String) : Option IPNet := do
  if '/' ∉ s.toList then none
  let ip ← parseAddr (s.toList.takeWhile (· ≠ '/'))
  let ones ← prefixLength (8*ip.length) ((s.toList.dropWhile (· ≠ '/')).drop 1)
  let mask := cidrMask ip.length ones
  return ⟨maskIP ip mask,mask⟩

/-- The network's address in its shorter form, with the mask that goes with it. -/
def networkNumberAndMask (net : IPNet) : List UInt8 × List UInt8 :=
  match to4 net.ip with
  | some ip => (ip,if net.mask.length = 16 then net.mask.drop 12 else net.mask)
  | none => (net.ip,net.mask)

def IPNet.contains (net : IPNet) (ip : List UInt8) : Bool :=
  let (number,mask) := networkNumberAndMask net
  let ip := (to4 ip).getD ip
  decide (ip.length = number.length ∧ maskIP number mask = maskIP ip mask)

/-! ## Host and port -/

def splitHostPort (s : String) : Option (String × String) :=
  let cs := s.toList
  let port := cs.rtakeWhile (· ≠ ':')
  if ':' ∉ cs then none
  else
    match cs with
    | '['::rest =>
      let host := rest.takeWhile (· ≠ ']')
      let after := (rest.dropWhile (· ≠ ']')).drop 1
      if ']' ∉ rest ∨ after ≠ ':'::port ∨ '[' ∈ rest ∨ ']' ∈ after then none
      else some (String.ofList host,String.ofList port)
    | _ =>
      let host := (cs.rdropWhile (· ≠ ':')).dropLast
      if ':' ∈ host ∨ '[' ∈ cs ∨ ']' ∈ cs then none
      else some (String.ofList host,String.ofList port)

end Net
