import CsmsPlatform.Runtime.Config

/-!
# Credentials and paths of the command API

A caller presents one of the configured keys as a bearer token and names the station in the path.
-/

namespace CsmsPlatform.Runtime

open Text

/-! ## Credentials -/

/-- `subtle.ConstantTimeCompare`: one on equal bytes, else zero. -/
def constantTimeCompare (a b : ByteArray) : Nat := if a = b then 1 else 0

def hexDigit (n : Nat) : Char := "0123456789abcdef".toList.getD n '0'

def encodeHex (bytes : List UInt8) : String :=
  String.ofList (bytes.flatMap fun b => [hexDigit (b.toNat/16),hexDigit (b.toNat%16)])

/-- The credential's id and whether it is one of the keys. The digest function is a parameter. -/
def authenticateBearer (sum256 : ByteArray → List UInt8) (header : String) (apiKeys : List String) :
    String × Bool :=
  if hasPrefix header "Bearer " = false then ("",false)
  else
    let provided := trimPrefix header "Bearer "
    let matched := apiKeys.foldl (fun matched apiKey =>
      if provided.utf8ByteSize = apiKey.utf8ByteSize then
        matched ||| constantTimeCompare provided.toUTF8 apiKey.toUTF8
      else matched) 0
    if matched ≠ 1 then ("",false)
    else (encodeHex ((sum256 provided.toUTF8).take 8),true)

/-- A key that the environment grants: a segment of the one variable if that is set, and otherwise the
value of the other, in either case without the white space around it and not empty. -/
def GrantedKey (lookup : Environment) (key : String) : Prop :=
  key ≠ "" ∧
  match lookup "CSMS_API_KEYS" with
  | some value => ∃ segment : String, IsSegment ',' segment.toList value.toList ∧ trimSpace segment = key
  | none => ∃ value, lookup "CSMS_API_KEY" = some value ∧ trimSpace value = key

section Credentials

variable (sum256 : ByteArray → List UInt8) {lookup : Environment}

theorem mem_splitNonEmpty {value key : String} : key ∈ splitNonEmpty value ↔
    key ≠ "" ∧ ∃ segment : String, IsSegment ',' segment.toList value.toList ∧ trimSpace segment = key := by
  unfold splitNonEmpty
  rw [List.mem_filterMap]
  constructor
  · rintro ⟨segment,hsegment,htrim⟩
    split at htrim
    · next hne =>
      cases htrim
      exact ⟨hne,segment,mem_split_iff.mp hsegment,rfl⟩
    · cases htrim
  · rintro ⟨hne,segment,hsegment,rfl⟩
    exact ⟨segment,mem_split_iff.mpr hsegment,if_pos hne⟩

theorem mem_loadAPIKeys {key : String} : key ∈ loadAPIKeys lookup ↔ GrantedKey lookup key := by
  unfold loadAPIKeys GrantedKey
  cases lookup "CSMS_API_KEYS" with
  | some value => exact mem_splitNonEmpty
  | none =>
    cases lookup "CSMS_API_KEY" with
    | none => simp
    | some value =>
      by_cases hempty : trimSpace value = ""
      · simp only [hempty,ne_eq,not_true,if_false,List.not_mem_nil,Option.some.injEq,false_iff,not_and]
        rintro hne ⟨_,rfl,hkey⟩
        exact hne (hkey.symm.trans hempty)
      · simp only [ne_eq,hempty,not_false_iff,if_true,List.mem_singleton,Option.some.injEq]
        constructor
        · rintro rfl
          exact ⟨hempty,value,rfl,rfl⟩
        · rintro ⟨_,_,rfl,hkey⟩
          exact hkey.symm

theorem constantTimeCompare_utf8 (a b : String) :
    constantTimeCompare a.toUTF8 b.toUTF8 = if a = b then 1 else 0 := by
  unfold constantTimeCompare
  simp only [String.toUTF8_eq_toByteArray,String.toByteArray_inj]

theorem matched_eq (provided : String) (apiKeys : List String) (found : Bool) :
    apiKeys.foldl (fun matched apiKey =>
      if provided.utf8ByteSize = apiKey.utf8ByteSize then
        matched ||| constantTimeCompare provided.toUTF8 apiKey.toUTF8
      else matched) found.toNat = (found || decide (provided ∈ apiKeys)).toNat := by
  induction apiKeys generalizing found with
  | nil => simp
  | cons apiKey rest ih =>
    have hstep : (if provided.utf8ByteSize = apiKey.utf8ByteSize then
        found.toNat ||| constantTimeCompare provided.toUTF8 apiKey.toUTF8
        else found.toNat) = (found || decide (provided = apiKey)).toNat := by
      rw [constantTimeCompare_utf8]
      by_cases heq : provided = apiKey
      · subst heq
        cases found <;> simp
      · cases found <;> simp [heq]
    rw [List.foldl_cons,hstep,ih]
    simp [Bool.or_assoc]

theorem authenticateBearer_eq (header : String) (apiKeys : List String) :
    authenticateBearer sum256 header apiKeys =
      if hasPrefix header "Bearer " = true ∧ trimPrefix header "Bearer " ∈ apiKeys then
        (encodeHex ((sum256 (trimPrefix header "Bearer ").toUTF8).take 8),true)
      else ("",false) := by
  unfold authenticateBearer
  have hloop := matched_eq (trimPrefix header "Bearer ") apiKeys false
  simp only [Bool.toNat_false,Bool.false_or] at hloop
  simp only [hloop]
  cases hasPrefix header "Bearer " with
  | false => simp
  | true => by_cases hmem : trimPrefix header "Bearer " ∈ apiKeys <;> simp [hmem]

theorem authenticateBearer_ok_iff {header : String} {apiKeys : List String} :
    (authenticateBearer sum256 header apiKeys).2 = true ↔ ∃ key ∈ apiKeys, header = "Bearer " ++ key := by
  rw [authenticateBearer_eq]
  split
  · next h =>
    obtain ⟨token,rfl⟩ := hasPrefix_iff.mp h.1
    exact ⟨fun _ => ⟨token,by simpa using h.2,rfl⟩,fun _ => rfl⟩
  · next h =>
    constructor
    · intro hfalse
      cases hfalse
    · rintro ⟨key,hkey,rfl⟩
      exact absurd ⟨hasPrefix_append _ _,by simpa using hkey⟩ h

end Credentials

/-- A loaded configuration admits exactly the granted keys. The empty token is none of them, only the
set of the keys matters, and more keys admit more. -/
theorem bearer_admits_granted (sum256 : ByteArray → List UInt8) {lookup : Environment} {config : Config}
    (hload : loadConfig lookup = .ok config) :
    (∀ header, (authenticateBearer sum256 header config.apiKeys).2 = true ↔
      ∃ key, header = "Bearer " ++ key ∧ GrantedKey lookup key) ∧
    (authenticateBearer sum256 "Bearer " config.apiKeys).2 = false ∧
    (∀ apiKeys, (∀ key, key ∈ apiKeys ↔ key ∈ config.apiKeys) → ∀ header,
      authenticateBearer sum256 header apiKeys = authenticateBearer sum256 header config.apiKeys) ∧
    ∀ apiKeys, config.apiKeys ⊆ apiKeys → ∀ header,
      (authenticateBearer sum256 header config.apiKeys).2 = true →
        (authenticateBearer sum256 header apiKeys).2 = true := by
  have hkeys := (loaded_of_loadConfig hload).apiKeys
  have hadmits (header : String) : (authenticateBearer sum256 header config.apiKeys).2 = true ↔
      ∃ key, header = "Bearer " ++ key ∧ GrantedKey lookup key := by
    rw [authenticateBearer_ok_iff,hkeys]
    simp only [mem_loadAPIKeys]
    exact exists_congr fun key => and_comm
  refine ⟨hadmits,?_,?_,?_⟩
  · rw [← Bool.not_eq_true,hadmits]
    rintro ⟨key,hheader,hne,_⟩
    apply hne
    simpa using hheader.symm
  · intro apiKeys hsame header
    simp only [authenticateBearer_eq,hsame]
  · intro apiKeys hmore header haccepted
    obtain ⟨key,hkey,rfl⟩ := (authenticateBearer_ok_iff sum256).mp haccepted
    exact (authenticateBearer_ok_iff sum256).mpr ⟨key,hmore hkey,rfl⟩

def rotatedKeys : Environment := fun name => if name = "CSMS_API_KEYS" then some " alpha ,, beta" else none

/-- The SHA-256 digest of the one token of the request below. -/
def betaDigest (_ : ByteArray) : List UInt8 :=
  [0xf4,0x4e,0x64,0xe7,0x5f,0x39,0x48,0xe9,0xf7,0x3f,0x8d,0xfa,0x94,0x72,0x1c,0x4c,
    0xe8,0xcb,0xb4,0xf2,0x65,0xc4,0x79,0x0c,0x70,0x2b,0x2d,0x41,0xcf,0xbf,0x27,0x53]

theorem bearer_admits_granted_rotated :
    loadConfig rotatedKeys = .ok { apiKeys := ["alpha","beta"] } ∧
    authenticateBearer betaDigest "Bearer beta" ["alpha","beta"] = ("f44e64e75f3948e9",true) ∧
    GrantedKey rotatedKeys "beta" := by
  have hload : loadConfig rotatedKeys = .ok { apiKeys := ["alpha","beta"] } := by decide +kernel
  have haccepted : authenticateBearer betaDigest "Bearer beta" ["alpha","beta"] =
    ("f44e64e75f3948e9",true) := by decide +kernel
  obtain ⟨key,hheader,hgranted⟩ := ((bearer_admits_granted betaDigest hload).1 "Bearer beta").mp
    (by rw [haccepted])
  refine ⟨hload,haccepted,?_⟩
  have hkey : key = "beta" := by
    rw [← String.toList_inj] at hheader ⊢
    simpa using hheader.symm
  rwa [hkey] at hgranted

/-! ## Paths -/

def resetPathIdentity (path : String) : String × Bool :=
  if hasPrefix path "/api/v1/stations/" = false ∨ hasSuffix path "/commands/reset" = false then ("",false)
  else
    let identity := trimSuffix (trimPrefix path "/api/v1/stations/") "/commands/reset"
    (identity,decide (identity ≠ "" ∧ '/' ∉ identity.toList))

def resetPath (identity : String) : String := "/api/v1/stations/" ++ identity ++ "/commands/reset"

theorem resetPathIdentity_resetPath (identity : String) :
    resetPathIdentity (resetPath identity) = (identity,decide (identity ≠ "" ∧ '/' ∉ identity.toList)) := by
  have hfront : hasPrefix (resetPath identity) "/api/v1/stations/" = true := hasPrefix_between _ _ _
  have hback : hasSuffix (resetPath identity) "/commands/reset" = true := hasSuffix_append _ _
  have htrim : trimSuffix (trimPrefix (resetPath identity) "/api/v1/stations/") "/commands/reset" =
    identity := trim_between _ _ _
  unfold resetPathIdentity
  rw [hfront,hback,htrim]
  rfl

/-- Where the two fixed texts share characters of the path, what follows the first one has a slash. -/
theorem overlap_slash {rest : List Char} (hrest : rest <:+ "/commands/reset".toList)
    (h : "/commands/reset".toList <:+ "/api/v1/stations/".toList ++ rest) : '/' ∈ rest := by
  have hall : ∀ rest ∈ "/commands/reset".toList.tails,
      "/commands/reset".toList <:+ "/api/v1/stations/".toList ++ rest → '/' ∈ rest := by decide
  exact hall rest ((List.mem_tails _ _).mpr hrest) h

theorem resetPath_of_accepted {path identity : String} (h : resetPathIdentity path = (identity,true)) :
    path = resetPath identity ∧ identity ≠ "" ∧ '/' ∉ identity.toList := by
  unfold resetPathIdentity at h
  split at h
  · cases h
  · next hends =>
    simp only [not_or,Bool.not_eq_false] at hends
    obtain ⟨rest,rfl⟩ := hasPrefix_iff.mp hends.1
    rw [trimPrefix_append] at h
    obtain ⟨hidentity,hvalid⟩ := Prod.mk.inj h
    have hvalid := of_decide_eq_true hvalid
    rw [hidentity] at hvalid
    refine ⟨?_,hvalid⟩
    by_cases hback : hasSuffix rest "/commands/reset" = true
    · obtain ⟨middle,rfl⟩ := hasSuffix_iff.mp hback
      rw [trimSuffix_append] at hidentity
      rw [hidentity]
      exact String.append_assoc.symm
    · exfalso
      have hpath := List.isSuffixOf_iff_suffix.mp hends.2
      rw [String.toList_append] at hpath
      rw [trimSuffix_of_not (Bool.not_eq_true _ ▸ hback)] at hidentity
      rcases List.suffix_or_suffix_of_suffix hpath (List.suffix_append _ _) with hwhole | hpart
      · exact hback (List.isSuffixOf_iff_suffix.mpr hwhole)
      · rw [← hidentity] at hvalid
        exact hvalid.2 (overlap_slash hpart hpath)

/-- A path is accepted for an identity exactly when it is that identity's path, of which an identity has
one. A path too short for the two fixed texts side by side is never accepted. -/
theorem resetPathIdentity_grammar (path identity : String) :
    (resetPathIdentity path = (identity,true) ↔
      path = "/api/v1/stations/" ++ identity ++ "/commands/reset" ∧ identity ≠ "" ∧
        '/' ∉ identity.toList) ∧
    (path.length < "/api/v1/stations/".length+"/commands/reset".length →
      (resetPathIdentity path).2 = false) ∧
    ∀ other, resetPathIdentity path = (identity,true) → resetPathIdentity other = (identity,true) →
      path = other := by
  refine ⟨⟨resetPath_of_accepted,?_⟩,?_,?_⟩
  · rintro ⟨hpath,hvalid⟩
    have haccepted := resetPathIdentity_resetPath identity
    rw [decide_eq_true hvalid] at haccepted
    rw [hpath]
    exact haccepted
  · intro hshort
    cases hresult : resetPathIdentity path with
    | mk middle accepted =>
      cases accepted with
      | false => rfl
      | true =>
        have hlength : path.length = _ := (congrArg String.length (resetPath_of_accepted hresult).1).trans
          (length_between _ _ _)
        omega
  · intro other hpath hother
    exact (resetPath_of_accepted hpath).1.trans (resetPath_of_accepted hother).1.symm

end CsmsPlatform.Runtime
