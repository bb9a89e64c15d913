import CsmsPlatform.Registry.Refinement

/-!
# The keys of one Redis

The session registry, the command bus and the rate limiter share a key prefix. Five of the six kinds
of key start with tags of which none begins another; the sixth is the counter of the registry, whose
key is the lease key of a station named `generation`.
-/

namespace CsmsPlatform

open Redis FencedLease

structure Bus where
  keyPrefix : String
  resultTTL : Int64
deriving DecidableEq, Repr

namespace Bus

def new (keyPrefix : String) (resultTTL : Int64) : Bus :=
  ⟨if keyPrefix = "" then "csms" else keyPrefix,
    if resultTTL.toInt ≤ 0 then 300000000000 else resultTTL⟩

def commandStream (bus : Bus) (ownerID : String) : String :=
  bus.keyPrefix ++ ":commands:" ++ ownerID

def resultKey (bus : Bus) (commandID : String) : String :=
  bus.keyPrefix ++ ":command-results:" ++ commandID

def completionKey (bus : Bus) (commandID : String) : String :=
  bus.keyPrefix ++ ":command-completions:" ++ commandID

end Bus

structure RateLimiter where
  keyPrefix : String
  limit : Int64
  window : Int64
deriving DecidableEq, Repr

def RateLimiter.counterKey (limiter : RateLimiter) (subject : String) (windowID : Int) : String :=
  limiter.keyPrefix ++ ":command-rate:" ++ subject ++ ":" ++ toString windowID

inductive KeyName where
  | lease (identity : String)
  | generation
  | commands (ownerID : String)
  | results (commandID : String)
  | completions (commandID : String)
  | rate (subject : String) (windowID : Int)
deriving DecidableEq, Repr

namespace KeyName

def render (registry : Registry) (bus : Bus) (limiter : RateLimiter) : KeyName → String
  | .lease identity => registry.leaseKey identity
  | .generation => registry.generationKey
  | .commands ownerID => bus.commandStream ownerID
  | .results commandID => bus.resultKey commandID
  | .completions commandID => bus.completionKey commandID
  | .rate subject windowID => limiter.counterKey subject windowID

/-- What follows the shared prefix, up to the arguments. -/
def tag : KeyName → String
  | .lease _ => ":session:"
  | .generation => ":session:"
  | .commands _ => ":commands:"
  | .results _ => ":command-results:"
  | .completions _ => ":command-completions:"
  | .rate _ _ => ":command-rate:"

def argument : KeyName → String
  | .lease identity => identity
  | .generation => "generation"
  | .commands ownerID => ownerID
  | .results commandID => commandID
  | .completions commandID => commandID
  | .rate subject windowID => subject ++ ":" ++ toString windowID

/-- The two names of the one shared key. -/
def Clash (a b : KeyName) : Prop :=
  a = .lease "generation" ∧ b = .generation ∨ a = .generation ∧ b = .lease "generation"

variable {registry : Registry} {bus : Bus} {limiter : RateLimiter} {p : String}

theorem render_eq (hr : registry.keyPrefix = p) (hb : bus.keyPrefix = p) (hl : limiter.keyPrefix = p)
    (k : KeyName) : k.render registry bus limiter = p ++ (k.tag ++ k.argument) := by
  cases k with
  | lease identity => simp [render,tag,argument,Registry.leaseKey,hr,String.append_assoc]
  | generation => simp [render,tag,argument,Registry.generationKey,hr]
  | commands ownerID => simp [render,tag,argument,Bus.commandStream,hb,String.append_assoc]
  | results commandID => simp [render,tag,argument,Bus.resultKey,hb,String.append_assoc]
  | completions commandID => simp [render,tag,argument,Bus.completionKey,hb,String.append_assoc]
  | rate subject windowID => simp [render,tag,argument,RateLimiter.counterKey,hl,String.append_assoc]

def tags : List String :=
  [":session:",":commands:",":command-results:",":command-completions:",":command-rate:"]

theorem tag_mem_tags (k : KeyName) : k.tag ∈ tags := by
  cases k <;> simp [tag,tags]

theorem tags_initial : ∀ a ∈ tags, ∀ b ∈ tags, a.toList <+: b.toList → a = b := by
  decide

theorem tag_eq_of_render {a b : KeyName} (h : a.tag ++ a.argument = b.tag ++ b.argument) :
    a.tag = b.tag ∧ a.argument = b.argument := by
  have hlist : a.tag.toList ++ a.argument.toList = b.tag.toList ++ b.argument.toList := by
    rw [← String.toList_append,h,String.toList_append]
  have ha : a.tag.toList <+: b.tag.toList ++ b.argument.toList := ⟨_,hlist⟩
  have htag : a.tag = b.tag := by
    rcases List.prefix_or_prefix_of_prefix ha (List.prefix_append _ _) with hp | hp
    · exact tags_initial _ a.tag_mem_tags _ b.tag_mem_tags hp
    · exact (tags_initial _ b.tag_mem_tags _ a.tag_mem_tags hp).symm
  refine ⟨htag,?_⟩
  rw [htag] at hlist
  exact String.toList_inj.mp (List.append_cancel_left hlist)

/-- The window number is what follows the last colon. -/
theorem rate_argument_inj {s s' : String} {i i' : Int}
    (h : s ++ ":" ++ toString i = s' ++ ":" ++ toString i') : s = s' ∧ i = i' := by
  have hlist : s.toList ++ ':'::(toString i).toList = s'.toList ++ ':'::(toString i').toList := by
    simpa [String.append_assoc] using congrArg String.toList h
  obtain ⟨hs,hi⟩ := Decimal.split_last_eq hlist (Decimal.colon_not_mem i) (Decimal.colon_not_mem i')
  exact ⟨String.toList_inj.mp hs,Int.repr_inj.mp (String.toList_inj.mp hi)⟩

theorem eq_of_tag_argument {a b : KeyName} (htag : a.tag = b.tag) (harg : a.argument = b.argument)
    (hc : ¬Clash a b) : a = b := by
  cases a <;> cases b <;> simp_all [tag,argument,Clash]
  exact rate_argument_inj harg

theorem render_inj_iff (hr : registry.keyPrefix = p) (hb : bus.keyPrefix = p)
    (hl : limiter.keyPrefix = p) (a b : KeyName) :
    (a.render registry bus limiter = b.render registry bus limiter → a = b) ↔ ¬Clash a b := by
  rw [render_eq hr hb hl,render_eq hr hb hl]
  constructor
  · intro h hc
    have hne : a ≠ b := by
      rcases hc with ⟨ha,hb⟩ | ⟨ha,hb⟩ <;> simp [ha,hb]
    apply hne
    apply h
    rcases hc with ⟨ha,hb⟩ | ⟨ha,hb⟩ <;> simp [ha,hb,tag,argument]
  · intro hc h
    obtain ⟨htag,harg⟩ := tag_eq_of_render (String.append_right_inj p |>.mp h)
    exact eq_of_tag_argument htag harg hc

end KeyName

/-- A valid claim on an unused registry is granted unless the station is named `generation`. -/
theorem Registry.claim_unused_iff {registry : Registry} {ks : Keyspace} {now : Int}
    (h : registry.Unused ks now) {s o : String} {ttl : Int64} (hs : s ≠ "") (ho : o ≠ "")
    (ht : 0 < ttl.toInt) :
    (∃ lease, (registry.claim s o ttl now ks).1 = .ok lease) ↔ s ≠ "generation" := by
  constructor
  · intro hok hg
    subst s
    obtain ⟨lease,hok⟩ := hok
    obtain ⟨⟨e,he⟩,_⟩ := claim_reserved h.represents ho ht
    rw [he] at hok
    cases hok
  · intro hg
    have hgranted := claim_granted h.represents hs ho ht hg (by simp [Table.live,Table.empty])
      (by simp [Table.empty])
    exact ⟨_,hgranted.1⟩

/-- With one prefix for all three users of Redis, equal keys are of one kind with equal arguments if
and only if they are not the counter's key and the lease key of a station named `generation`; and
that is the one name under which a station is refused the lease of an unused registry. -/
theorem redisKeys_collide_iff (keyPrefix : String) (resultTTL limit window : Int64) :
    let registry : Registry := ⟨keyPrefix⟩
    let bus : Bus := ⟨keyPrefix,resultTTL⟩
    let limiter : RateLimiter := ⟨keyPrefix,limit,window⟩
    (∀ a b : KeyName, (a.render registry bus limiter = b.render registry bus limiter → a = b) ↔
      ¬(a = .lease "generation" ∧ b = .generation ∨ a = .generation ∧ b = .lease "generation")) ∧
    ∀ ks now s o ttl, registry.Unused ks now → s ≠ "" → o ≠ "" → 0 < Int64.toInt ttl →
      ((∃ lease, (registry.claim s o ttl now ks).1 = .ok lease) ↔ s ≠ "generation") := by
  intro registry bus limiter
  refine ⟨fun a b => KeyName.render_inj_iff rfl rfl rfl a b,?_⟩
  intro ks now s o ttl hunused hs ho ht
  exact registry.claim_unused_iff hunused hs ho ht

theorem redisKeys_station :
    KeyName.render ⟨"csms"⟩ ⟨"csms",300000000000⟩ ⟨"csms",10,60000000000⟩ (.lease "station-1") ≠
      KeyName.render ⟨"csms"⟩ ⟨"csms",300000000000⟩ ⟨"csms",10,60000000000⟩ .generation ∧
    ∃ lease, ((⟨"csms"⟩ : Registry).claim "station-1" "runtime-a" 30000000000 0 Keyspace.empty).1 =
      .ok lease := by
  have hkeys := redisKeys_collide_iff "csms" 300000000000 10 60000000000
  refine ⟨?_,?_⟩
  · intro he
    have hname := (hkeys.1 (.lease "station-1") .generation).mpr (by decide) he
    cases hname
  · exact (hkeys.2 Keyspace.empty 0 "station-1" "runtime-a" 30000000000 ⟨fun _ => rfl,rfl⟩ (by decide)
      (by decide) (by decide)).mpr (by decide)

/-- A station that connects as `generation` is refused its lease, and its attempt uses up the number
that the next station's lease would have had. -/
theorem redisKeys_generationStation :
    let registry : Registry := ⟨"csms"⟩
    let refused := registry.claim "generation" "runtime-a" 30000000000 0 Keyspace.empty
    KeyName.render registry ⟨"csms",300000000000⟩ ⟨"csms",10,60000000000⟩ (.lease "generation") =
      KeyName.render registry ⟨"csms",300000000000⟩ ⟨"csms",10,60000000000⟩ .generation ∧
    refused.1 = .error (.redis "claim redis session lease" .wrongType) ∧
    refused.2.live 0 registry.generationKey = some ⟨.string "1",none⟩ ∧
    (registry.claim "station-1" "runtime-a" 30000000000 0 refused.2).1 =
      .ok ⟨"station-1","runtime-a",2,30000000000⟩ := by
  refine ⟨by decide +kernel,rfl,rfl,rfl⟩

end CsmsPlatform
