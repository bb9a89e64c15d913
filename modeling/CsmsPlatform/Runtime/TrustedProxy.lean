import CsmsPlatform.Framework.Net
import CsmsPlatform.Framework.Text

/-!
# Client addresses behind a reverse proxy

`resolve` takes the leftmost `X-Forwarded-For` entry when the connection comes from a trusted network.
A hop that appends its own peer to what the client sent leaves that entry to the client.
-/

namespace CsmsPlatform.Runtime

open Text

abbrev Header := String → List String

def Header.get (header : Header) (name : String) : String := (header name).headD ""

structure TrustedProxyResolver where
  trustedNets : List Net.IPNet
deriving DecidableEq, Repr

inductive ResolverError where
  | invalidCIDR (cidr : String)
deriving DecidableEq, Repr

def ResolverError.message : ResolverError → String
  | .invalidCIDR cidr => "invalid trusted proxy CIDR \"" ++ cidr ++ "\": invalid CIDR address: " ++ cidr

def parseTrustedNets : List String → Except ResolverError (List Net.IPNet)
  | [] => .ok []
  | cidr::cidrs =>
    match Net.parseCIDR cidr with
    | none => .error (.invalidCIDR cidr)
    | some ipNet => (parseTrustedNets cidrs).map (ipNet::·)

def newTrustedProxyResolver (cidrs : List String) : Except ResolverError TrustedProxyResolver :=
  (parseTrustedNets cidrs).map TrustedProxyResolver.mk

/-- The host of a connection's address, or the whole text where it is no host and port. -/
def remoteHost (remoteAddr : String) : String :=
  match Net.splitHostPort remoteAddr with
  | some (host,_) => host
  | none => remoteAddr

namespace TrustedProxyResolver

def isTrusted (resolver : TrustedProxyResolver) (ip : List UInt8) : Bool :=
  resolver.trustedNets.any fun ipNet => ipNet.contains ip

def resolve (resolver : TrustedProxyResolver) (remoteAddr : String) (header : Header) : String :=
  if resolver.trustedNets = [] then remoteAddr
  else
    match Net.parseIP (remoteHost remoteAddr) with
    | none => remoteAddr
    | some ip =>
      if resolver.isTrusted ip = false then remoteAddr
      else
        let forwardedFor := header.get "X-Forwarded-For"
        if forwardedFor = "" then remoteAddr
        else
          -- the leftmost entry, which the client itself may have sent
          let clientAddr := trimSpace ((split forwardedFor ',').headD "")
          if Net.parseIP clientAddr = none then remoteAddr else clientAddr

end TrustedProxyResolver

structure HandshakeAttempt where
  identity : String
  remoteAddr : String
  header : Header

/-- The limiter inside sees the resolved address in place of the connection's. -/
def resolvedAllow {State : Type} (resolver : TrustedProxyResolver)
    (allow : HandshakeAttempt → State → Bool × State) (attempt : HandshakeAttempt) :
    State → Bool × State :=
  allow { attempt with remoteAddr := resolver.resolve attempt.remoteAddr attempt.header }

/-- The host of the connection lies in one of the networks. -/
def FromTrusted (cidrs : List String) (remoteAddr : String) : Prop :=
  ∃ ip, Net.parseIP (remoteHost remoteAddr) = some ip ∧
    ∃ cidr ∈ cidrs, ∃ ipNet, Net.parseCIDR cidr = some ipNet ∧ ipNet.contains ip = true

def leftmostEntry (forwardedFor : String) : String := trimSpace ((split forwardedFor ',').headD "")

section Resolve

variable {cidrs : List String} {resolver : TrustedProxyResolver} {remoteAddr : String} {header : Header}

theorem parseTrustedNets_mem {nets : List Net.IPNet} (h : parseTrustedNets cidrs = .ok nets)
    (ipNet : Net.IPNet) : ipNet ∈ nets ↔ ∃ cidr ∈ cidrs, Net.parseCIDR cidr = some ipNet := by
  induction cidrs generalizing nets with
  | nil =>
    cases h
    simp
  | cons cidr cidrs ih =>
    unfold parseTrustedNets at h
    split at h
    · cases h
    · next first hfirst =>
      cases hrest : parseTrustedNets cidrs with
      | error e =>
        rw [hrest] at h
        cases h
      | ok rest =>
        rw [hrest] at h
        cases h
        rw [List.mem_cons,ih hrest]
        simp [hfirst,eq_comm]

theorem newTrustedProxyResolver_mem (h : newTrustedProxyResolver cidrs = .ok resolver)
    (ipNet : Net.IPNet) :
    ipNet ∈ resolver.trustedNets ↔ ∃ cidr ∈ cidrs, Net.parseCIDR cidr = some ipNet := by
  unfold newTrustedProxyResolver at h
  cases hnets : parseTrustedNets cidrs with
  | error e =>
    rw [hnets] at h
    cases h
  | ok nets =>
    rw [hnets] at h
    cases h
    exact parseTrustedNets_mem hnets ipNet

theorem isTrusted_iff (h : newTrustedProxyResolver cidrs = .ok resolver) (ip : List UInt8) :
    resolver.isTrusted ip = true ↔
      ∃ cidr ∈ cidrs, ∃ ipNet, Net.parseCIDR cidr = some ipNet ∧ ipNet.contains ip = true := by
  unfold TrustedProxyResolver.isTrusted
  rw [List.any_eq_true]
  constructor
  · rintro ⟨ipNet,hm,hc⟩
    obtain ⟨cidr,hcidr,hparse⟩ := (newTrustedProxyResolver_mem h ipNet).mp hm
    exact ⟨cidr,hcidr,ipNet,hparse,hc⟩
  · rintro ⟨cidr,hcidr,ipNet,hparse,hc⟩
    exact ⟨ipNet,(newTrustedProxyResolver_mem h ipNet).mpr ⟨cidr,hcidr,hparse⟩,hc⟩

theorem resolve_untrusted (h : newTrustedProxyResolver cidrs = .ok resolver)
    (hfrom : ¬FromTrusted cidrs remoteAddr) : resolver.resolve remoteAddr header = remoteAddr := by
  unfold TrustedProxyResolver.resolve
  split
  · rfl
  · split
    · rfl
    · next ip hip =>
      rw [if_pos]
      rw [Bool.eq_false_iff]
      exact fun htrusted => hfrom ⟨ip,hip,(isTrusted_iff h ip).mp htrusted⟩

theorem resolve_trusted (h : newTrustedProxyResolver cidrs = .ok resolver)
    (hfrom : FromTrusted cidrs remoteAddr) (hne : header.get "X-Forwarded-For" ≠ "") :
    resolver.resolve remoteAddr header =
      if Net.parseIP (leftmostEntry (header.get "X-Forwarded-For")) = none then remoteAddr
      else leftmostEntry (header.get "X-Forwarded-For") := by
  obtain ⟨ip,hip,htrusted⟩ := hfrom
  have hnets : resolver.trustedNets ≠ [] := by
    obtain ⟨cidr,hcidr,ipNet,hparse,_⟩ := htrusted
    exact List.ne_nil_of_mem ((newTrustedProxyResolver_mem h ipNet).mpr ⟨cidr,hcidr,hparse⟩)
  have hin := (isTrusted_iff h ip).mpr htrusted
  simp [TrustedProxyResolver.resolve,hnets,hip,hin,hne,leftmostEntry]

/-- A limiter that counts by address gives a client outside the trusted networks one budget, whatever
it sends. -/
theorem resolvedAllow_untrusted {State : Type} {allow : HandshakeAttempt → State → Bool × State}
    (hkeyed : ∀ attempt header, allow { attempt with header } = allow attempt)
    (h : newTrustedProxyResolver cidrs = .ok resolver) (attempt : HandshakeAttempt)
    (hfrom : ¬FromTrusted cidrs attempt.remoteAddr) (header : Header) :
    resolvedAllow resolver allow { attempt with header } = resolvedAllow resolver allow attempt := by
  simp only [resolvedAllow,resolve_untrusted h hfrom]
  exact hkeyed attempt header

end Resolve

section Entries

variable {p : String}

theorem isSpace_of_isAddrChar {c : Char} (h : Net.isAddrChar c = true) : isSpace c = false := by
  have hrange := Net.isAddrChar_range h
  simp only [isSpace,List.mem_cons,List.not_mem_nil,or_false,Bool.or_eq_false_iff,decide_eq_false_iff_not]
  omega

theorem leftmostEntry_address (h : Net.parseIP p ≠ none) : leftmostEntry p = p := by
  obtain ⟨ip,hip⟩ := Option.ne_none_iff_exists'.mp h
  have hchars := Net.parseIP_chars hip
  have hcomma : ',' ∉ p.toList := fun hm => absurd (hchars _ hm) (by decide)
  rw [leftmostEntry,split_head_of_not_mem hcomma]
  exact trimSpace_of_no_space fun c hc => isSpace_of_isAddrChar (hchars c hc)

theorem leftmostEntry_append (client tail : String) :
    leftmostEntry (client ++ "," ++ tail) = leftmostEntry client :=
  congrArg trimSpace (split_head_append client tail ',')

theorem address_ne_empty (h : Net.parseIP p ≠ none) : p ≠ "" := by
  rintro rfl
  exact h rfl

theorem appended_ne_empty (client tail : String) : client ++ "," ++ tail ≠ "" := by
  intro h
  have hlength := congrArg String.length h
  rw [length_between] at hlength
  simp at hlength

end Entries

/-- Outside the trusted networks the header changes nothing. Behind a trusted hop that appends its
peer `p`, a client that sends no list is resolved to `p`, and one that sends a text is resolved to `p`
exactly when its text leads with `p`, or leads with no address while the hop itself is called `p`. -/
theorem resolve_appended_peer (cidrs : List String) (resolver : TrustedProxyResolver)
    (h : newTrustedProxyResolver cidrs = .ok resolver) (remoteAddr : String) :
    (¬FromTrusted cidrs remoteAddr → ∀ header header' : Header,
      resolver.resolve remoteAddr header = resolver.resolve remoteAddr header') ∧
    (FromTrusted cidrs remoteAddr → ∀ p, Net.parseIP p ≠ none → ∀ header : Header,
      (header.get "X-Forwarded-For" = p → resolver.resolve remoteAddr header = p) ∧
      ∀ client, header.get "X-Forwarded-For" = client ++ "," ++ p →
        (resolver.resolve remoteAddr header = p ↔
          leftmostEntry client = p ∨
            Net.parseIP (leftmostEntry client) = none ∧ remoteAddr = p)) := by
  refine ⟨fun hfrom header header' => ?_,fun hfrom p hp header => ⟨fun hget => ?_,fun client hget => ?_⟩⟩
  · rw [resolve_untrusted h hfrom,resolve_untrusted h hfrom]
  · have hne : header.get "X-Forwarded-For" ≠ "" := by
      rw [hget]
      exact address_ne_empty hp
    rw [resolve_trusted h hfrom hne,hget,leftmostEntry_address hp,if_neg hp]
  · have hne : header.get "X-Forwarded-For" ≠ "" := by
      rw [hget]
      exact appended_ne_empty client p
    rw [resolve_trusted h hfrom hne,hget,leftmostEntry_append]
    by_cases hnone : Net.parseIP (leftmostEntry client) = none
    · have hother : leftmostEntry client ≠ p := fun he => hp (he ▸ hnone)
      rw [if_pos hnone]
      simp [hnone,hother]
    · rw [if_neg hnone]
      simp [hnone]

theorem resolve_appended_peer_alone :
    ∃ resolver, newTrustedProxyResolver ["10.0.0.0/8"] = .ok resolver ∧
      resolver.resolve "10.0.0.1:443" (fun _ => ["203.0.113.7"]) = "203.0.113.7" := by
  have hnew : newTrustedProxyResolver ["10.0.0.0/8"] = .ok ⟨[⟨[10,0,0,0],[255,0,0,0]⟩]⟩ := by decide +kernel
  have hfrom : FromTrusted ["10.0.0.0/8"] "10.0.0.1:443" :=
    ⟨[0,0,0,0,0,0,0,0,0,0,255,255,10,0,0,1],by decide +kernel,"10.0.0.0/8",by simp,
      ⟨[10,0,0,0],[255,0,0,0]⟩,by decide +kernel,by decide +kernel⟩
  exact ⟨_,hnew,((resolve_appended_peer _ _ hnew _).2 hfrom "203.0.113.7" (by decide +kernel) _).1 rfl⟩

theorem resolve_spoofed :
    ∃ resolver, newTrustedProxyResolver ["10.0.0.0/8"] = .ok resolver ∧
      resolver.resolve "10.0.0.1:443" (fun _ => ["203.0.113.7"]) = "203.0.113.7" ∧
      resolver.resolve "10.0.0.1:443" (fun _ => ["1.2.3.4" ++ "," ++ "203.0.113.7"]) = "1.2.3.4" ∧
      resolver.resolve "10.0.0.1:443" (fun _ => ["1.2.3.5" ++ "," ++ "203.0.113.7"]) = "1.2.3.5" :=
  ⟨⟨[⟨[10,0,0,0],[255,0,0,0]⟩]⟩,by decide +kernel,by decide +kernel,by decide +kernel,by decide +kernel⟩

end CsmsPlatform.Runtime
