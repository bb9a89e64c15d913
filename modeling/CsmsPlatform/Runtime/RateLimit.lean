import CsmsPlatform.CommandBus.Codec
import CsmsPlatform.CommandBus.Keys
import CsmsPlatform.Framework.Quota
import CsmsPlatform.Framework.Redis.Footprint

/-!
# Command rate limit

Every replica counts the calls of a subject in one Redis key per window. The key runs out one window
after its first call, which is never inside the window it counts. So the limiter is a quota per subject
and window, as long as the script's numbers count its calls exactly.
-/

namespace CsmsPlatform

open Redis

def commandRateScript (key : String) (window : Int) : Script Int := do
  let count := Lua.number (← incr key)
  if count = 1 then
    let _ ← pexpire key window
  return Lua.toReply count

namespace RateLimiter

def windowID (limiter : RateLimiter) (now : Int) : Int :=
  -- Go divides towards zero
  (timeUnixNano now).toInt.tdiv limiter.window.toInt

def allow (limiter : RateLimiter) (subject : String) (now : Int) (ks : Keyspace) :
    Except String Bool × Keyspace :=
  match commandRateScript (limiter.counterKey subject (limiter.windowID now))
      (milliseconds limiter.window) now ks with
  | (.error fault,ks') => (.error ("apply Redis command rate limit: " ++ fault.message),ks')
  | (.ok count,ks') => (.ok (decide (count ≤ limiter.limit.toInt)),ks')

end RateLimiter

/-- A call of some replica, at the instant it reads the clock and runs the script. -/
structure RateCall where
  time : Int
  subject : String
deriving DecidableEq, Repr

namespace RateLimiter

/-- The calls in their order, each with whether it was allowed. -/
def admissions (limiter : RateLimiter) : List RateCall → Keyspace → List (RateCall × Bool)
  | [],_ => []
  | call::rest,ks =>
    (call,decide ((limiter.allow call.subject call.time ks).1 = .ok true))::
      limiter.admissions rest (limiter.allow call.subject call.time ks).2

def Unused (limiter : RateLimiter) (ks : Keyspace) (now : Int) : Prop :=
  ∀ subject windowID, ks.live now (limiter.counterKey subject windowID) = none

end RateLimiter

def minute : Int64 := 60000000000

/-- The instants that nanoseconds of 64 bits hold, but for the last minute before the epoch: the
division rounds towards zero and puts it in one window with the minute that follows. -/
def OnClock (time : Int) : Prop :=
  -2^63 ≤ time ∧ time < 2^63 ∧ ¬ (-60000000000 < time ∧ time < 0)

instance (time : Int) : Decidable (OnClock time) := inferInstanceAs (Decidable (_ ∧ _ ∧ _))

namespace RateLimiter

variable {limiter : RateLimiter} {ks : Keyspace} {now later : Int} {s : String}

theorem counterKey_inj {s s' : String} {w w' : Int}
    (h : limiter.counterKey s w = limiter.counterKey s' w') : s = s' ∧ w = w' := by
  apply KeyName.rate_argument_inj
  apply (String.append_right_inj (limiter.keyPrefix ++ ":command-rate:")).mp
  simpa [counterKey,String.append_assoc] using h

/-! ## Windows -/

theorem windowID_eq (hwindow : limiter.window = minute) (h : OnClock now) :
    limiter.windowID now = now.tdiv 60000000000 := by
  have hnano : (timeUnixNano now).toInt = now := Int64.toInt_ofInt_of_le h.1 h.2.1
  rw [windowID,hnano,hwindow]
  rfl

theorem tdiv_minute (time : Int) : time.tdiv 60000000000 =
    if 0 ≤ time ∨ 60000000000 ∣ time then time/60000000000 else time/60000000000+1 := by
  rw [Int.tdiv_eq_ediv]
  split_ifs
  · rw [add_zero]
  · rfl

theorem windowID_near (hwindow : limiter.window = minute) (hnow : OnClock now) (hlater : OnClock later)
    (h : limiter.windowID later = limiter.windowID now) : later < now+60000000000 := by
  rw [windowID_eq hwindow hnow,windowID_eq hwindow hlater,tdiv_minute,tdiv_minute] at h
  obtain ⟨_,_,hgap⟩ := hnow
  split_ifs at h <;> omega

/-- A stretch of one window's length meets two windows at most. -/
theorem windowID_next (hwindow : limiter.window = minute) {time : Int} (htime : OnClock time)
    (hle : now ≤ time) (h : time ≤ now+60000000000) :
    limiter.windowID time = now.tdiv 60000000000 ∨
      limiter.windowID time = now.tdiv 60000000000+1 := by
  rw [windowID_eq hwindow htime,tdiv_minute,tdiv_minute]
  split_ifs <;> omega

/-! ## One call -/

def counted (count : Nat) (expiresAt : Int) : Item := ⟨.string (toString (count : Int)),some expiresAt⟩

theorem allow_first (hwindow : limiter.window = minute)
    (h : ks.live now (limiter.counterKey s (limiter.windowID now)) = none) :
    limiter.allow s now ks = (.ok (decide (1 ≤ limiter.limit.toInt)),
      ks.set (limiter.counterKey s (limiter.windowID now)) (counted 1 (now+60000000000))) := by
  have hlive : (ks.set (limiter.counterKey s (limiter.windowID now))
      ⟨.string (toString (1 : Int)),none⟩).live now (limiter.counterKey s (limiter.windowID now)) =
        some ⟨.string (toString (1 : Int)),none⟩ := by
    rw [Keyspace.live_set_self]
    rfl
  have hms : milliseconds limiter.window = 60000 := by
    rw [hwindow]
    rfl
  have hone : Lua.number 1 = 1 := by decide
  have hscript : commandRateScript (limiter.counterKey s (limiter.windowID now)) 60000 now ks =
      (.ok 1,ks.set (limiter.counterKey s (limiter.windowID now)) (counted 1 (now+60000000000))) := by
    unfold commandRateScript
    rw [Script.bind_ok (incr_absent h)]
    simp only [hone,if_true]
    rw [Script.bind_ok ((pexpire_live hlive 60000).trans (if_neg (by decide)))]
    simp [counted,millisecond,Lua.toReply]
  rw [allow,hms,hscript]

theorem allow_counted {count : Nat} {expiresAt : Int} (hpos : 0 < count) (hexact : count < 2^53)
    (h : ks.live now (limiter.counterKey s (limiter.windowID now)) = some (counted count expiresAt)) :
    limiter.allow s now ks = (.ok (decide ((count : Int)+1 ≤ limiter.limit.toInt)),
      ks.set (limiter.counterKey s (limiter.windowID now)) (counted (count+1) expiresAt)) := by
  have hincr := incr_integer h (by omega) (by omega)
  rw [if_pos (by omega)] at hincr
  have hnumber : Lua.number ((count : Int)+1) = count+1 := Lua.number_eq (by omega)
  have hreply : Lua.toReply ((count : Int)+1) = count+1 := Lua.toReply_eq (by omega) (by omega)
  have hnot : ¬ (count : Int)+1 = 1 := by omega
  unfold allow commandRateScript
  rw [Script.bind_ok hincr]
  simp only [hnumber]
  rw [if_neg hnot]
  simp [counted,hreply]

/-! ## Other subjects -/

theorem allow_local {K : String → Prop} (limiter : RateLimiter) (subject : String)
    (h : ∀ windowID, K (limiter.counterKey subject windowID)) : Local K (limiter.allow subject) := by
  have hscript (windowID : Int) :
      Local K (commandRateScript (limiter.counterKey subject windowID) (milliseconds limiter.window)) := by
    refine (incr_local (h windowID)).bind fun count => ?_
    by_cases h1 : Lua.number count = 1
    · simp only [if_pos h1]
      exact (pexpire_local (h windowID) _).bind fun _ => local_pure _
    · simp only [if_neg h1]
      exact local_pure _
  -- the counter is another one in each window
  have hcount : Local K fun now ks => commandRateScript (limiter.counterKey subject (limiter.windowID now))
      (milliseconds limiter.window) now ks :=
    local_of_eq fun now => ⟨_,hscript (limiter.windowID now),fun _ => rfl⟩
  apply hcount.map
  intro now reply
  cases reply with
  | error fault => exact ⟨_,fun ks ks' hs => by simp only [RateLimiter.allow,hs]; rfl⟩
  | ok count => exact ⟨_,fun ks ks' hs => by simp only [RateLimiter.allow,hs]; rfl⟩

def CounterOf (limiter : RateLimiter) (subject key : String) : Prop :=
  ∃ windowID, key = limiter.counterKey subject windowID

theorem admissions_filter (limiter : RateLimiter) (subject : String) (calls : List RateCall)
    {ks ks' : Keyspace} (h : ks.Agree (limiter.CounterOf subject) ks') :
    (limiter.admissions calls ks).filter (fun e => e.1.subject = subject) =
      limiter.admissions (calls.filter fun call => call.subject = subject) ks' := by
  induction calls generalizing ks ks' with
  | nil => rfl
  | cons call rest ih =>
    by_cases hs : call.subject = subject
    · have hlocal : Local (limiter.CounterOf subject) (limiter.allow call.subject) :=
        limiter.allow_local call.subject fun w => ⟨w,by rw [hs]⟩
      have hrest := ih (hlocal.writes call.time ks ks' h)
      simp only [admissions,List.filter_cons,hs,decide_true,if_true]
      rw [← hs] at hrest ⊢
      rw [hrest,hlocal.reply call.time ks ks' h]
    · have hlocal : Local (limiter.CounterOf call.subject) (limiter.allow call.subject) :=
        limiter.allow_local call.subject fun w => ⟨w,rfl⟩
      have hframe : (limiter.allow call.subject call.time ks).2.Agree (limiter.CounterOf subject) ks' := by
        intro key hkey
        rw [hlocal.frame call.time ks key]
        · exact h key hkey
        · intro hother
          obtain ⟨w,rfl⟩ := hkey
          obtain ⟨w',hw⟩ := hother
          exact hs (counterKey_inj hw).1.symm
      simp only [admissions,List.filter_cons,hs,decide_false,Bool.false_eq_true,if_false]
      exact ih hframe

/-! ## Runs -/

def bucket (limiter : RateLimiter) (call : RateCall) : String × Int :=
  (call.subject,limiter.windowID call.time)

/-- What the keyspace shows of the calls so far. A counter runs out one window after the first call
it counted. -/
structure Counts (limiter : RateLimiter) (ks : Keyspace) (now : Int) (used : String × Int → Nat) :
    Prop where
  unused : ∀ s w, used (s,w) = 0 → ks.live now (limiter.counterKey s w) = none
  counting : ∀ s w, 0 < used (s,w) → ∃ first, OnClock first ∧ limiter.windowID first = w ∧
    (now < first+60000000000 → ks.live now (limiter.counterKey s w) =
      some (counted (used (s,w)) (first+60000000000)))

variable {used : String × Int → Nat}

theorem Unused.counts (h : limiter.Unused ks now) : limiter.Counts ks now fun _ => 0 where
  unused s w _ := h s w
  counting _ _ hpos := absurd hpos (lt_irrefl 0)

theorem Counts.wait (h : limiter.Counts ks now used) (hle : now ≤ later) :
    limiter.Counts ks later used where
  unused s w hused := by
    rw [Keyspace.live_later hle,h.unused s w hused]
    rfl
  counting s w hused := by
    obtain ⟨first,hfirst,hwindow,hlive⟩ := h.counting s w hused
    refine ⟨first,hfirst,hwindow,fun hlater => ?_⟩
    rw [Keyspace.live_later hle,hlive (by omega)]
    simp [Option.filter,counted,Item.liveAt,hlater]

theorem Counts.use (h : limiter.Counts ks now used) {s : String} {w first : Int} (hfirst : OnClock first)
    (hwindow : limiter.windowID first = w) :
    limiter.Counts (ks.set (limiter.counterKey s w)
      (counted (used (s,w)+1) (first+60000000000))) now (Quota.use used (s,w)) where
  unused s' w' hused := by
    have hne : (s',w') ≠ (s,w) := by
      intro heq
      rw [heq,Quota.use_self] at hused
      cases hused
    rw [Quota.use_ne used hne] at hused
    rw [Keyspace.live_set_ne]
    · exact h.unused s' w' hused
    · intro hkey
      obtain ⟨rfl,rfl⟩ := counterKey_inj hkey
      exact hne rfl
  counting s' w' hused := by
    by_cases heq : (s',w') = (s,w)
    · cases heq
      refine ⟨first,hfirst,hwindow,fun hlive => ?_⟩
      rw [Keyspace.live_set_self,Quota.use_self]
      simp [counted,Item.liveAt,hlive]
    · rw [Quota.use_ne used heq] at hused ⊢
      rw [Keyspace.live_set_ne]
      · exact h.counting s' w' hused
      · intro hkey
        obtain ⟨rfl,rfl⟩ := counterKey_inj hkey
        exact heq rfl

theorem Counts.allow (hwindow : limiter.window = minute) (h : limiter.Counts ks now used)
    (hnow : OnClock now) (s : String) (hroom : used (s,limiter.windowID now) < 2^53) :
    decide ((limiter.allow s now ks).1 = .ok true) =
        decide (used (s,limiter.windowID now) < limiter.limit.toInt.toNat) ∧
      limiter.Counts (limiter.allow s now ks).2 now (Quota.use used (s,limiter.windowID now)) := by
  generalize hn : used (s,limiter.windowID now) = n at hroom
  cases Nat.eq_zero_or_pos n with
  | inl hzero =>
    subst hzero
    have hafter := h.use (s := s) hnow rfl
    rw [hn] at hafter
    rw [allow_first hwindow (h.unused _ _ hn)]
    refine ⟨?_,hafter⟩
    simp only [Except.ok.injEq,decide_eq_true_eq]
    rw [decide_eq_decide]
    omega
  | inr hpos =>
    obtain ⟨first,hfirst,hsame,hlive⟩ := h.counting s (limiter.windowID now) (by omega)
    have hcounted := hlive (windowID_near hwindow hfirst hnow hsame.symm)
    have hafter := h.use (s := s) hfirst hsame
    rw [hn] at hcounted hafter
    rw [allow_counted hpos hroom hcounted]
    refine ⟨?_,hafter⟩
    simp only [Except.ok.injEq,decide_eq_true_eq]
    rw [decide_eq_decide]
    omega

/-- The replicas together keep one quota per subject and window. -/
theorem admissions_quota (hwindow : limiter.window = minute) (h : limiter.Counts ks now used)
    {calls : List RateCall} (htimes : (now::calls.map RateCall.time).Pairwise (· ≤ ·))
    (hclock : ∀ call ∈ calls, OnClock call.time)
    (hfew : ∀ k, used k+calls.countP (fun call => limiter.bucket call = k) ≤ 2^53) :
    limiter.admissions calls ks =
      Quota.ration limiter.limit.toInt.toNat limiter.bucket used calls := by
  induction calls generalizing ks now used with
  | nil => rfl
  | cons call rest ih =>
    obtain ⟨hnow,hrest⟩ := List.pairwise_cons.mp htimes
    obtain ⟨hcall,hlater⟩ := List.forall_mem_cons.mp hclock
    have hroom := hfew (limiter.bucket call)
    rw [List.countP_cons_of_pos (by simp)] at hroom
    obtain ⟨hallowed,hafter⟩ :=
      (h.wait (hnow _ List.mem_cons_self)).allow hwindow hcall call.subject
        (by change used (limiter.bucket call) < _; omega)
    have hmore (k : String × Int) : Quota.use used (limiter.bucket call) k+
        rest.countP (fun call => limiter.bucket call = k) ≤ 2^53 := by
      have hk := hfew k
      by_cases heq : limiter.bucket call = k
      · subst heq
        rw [Quota.use_self]
        omega
      · rw [List.countP_cons_of_neg (by simpa using heq)] at hk
        rw [Quota.use_ne used (Ne.symm heq)]
        exact hk
    rw [admissions,Quota.ration,hallowed,ih hafter hrest hlater hmore]
    rfl

theorem admissions_subject (hwindow : limiter.window = minute) (h : limiter.Unused ks now)
    {calls : List RateCall} (htimes : (now::calls.map RateCall.time).Pairwise (· ≤ ·))
    (hclock : ∀ call ∈ calls, OnClock call.time) {subject : String}
    (hfew : ∀ window, (calls.countP fun call =>
      call.subject = subject ∧ limiter.windowID call.time = window) ≤ 2^53) :
    limiter.admissions (calls.filter fun call => call.subject = subject) ks =
      Quota.ration limiter.limit.toInt.toNat limiter.bucket (fun _ => 0)
        (calls.filter fun call => call.subject = subject) := by
  refine admissions_quota hwindow h.counts ?_ ?_ ?_
  · exact htimes.sublist ((List.filter_sublist.map _).cons_cons _)
  · intro call hcall
    exact hclock call (List.mem_filter.mp hcall).1
  · intro k
    obtain ⟨s,w⟩ := k
    rw [zero_add,List.countP_filter]
    refine (List.countP_mono_left ?_).trans (hfew w)
    intro call _ hk
    simp only [bucket,Prod.mk.injEq,Bool.and_eq_true,decide_eq_true_eq] at hk ⊢
    exact ⟨hk.2,hk.1.2⟩

end RateLimiter

/-- Of a subject's calls in one window the first are allowed, up to the limit, and no others; a window's
length at any time sees at most twice the limit; and the calls of other subjects change none of this. The
calls come at instants whose windows are a minute long, and at most `2^53` of the subject in a window. -/
theorem commandRate_quota (limiter : RateLimiter) (hwindow : limiter.window = minute) {ks : Keyspace}
    {start : Int} (h : limiter.Unused ks start) (calls : List RateCall)
    (htimes : (start::calls.map RateCall.time).Pairwise (· ≤ ·))
    (hclock : ∀ call ∈ calls, OnClock call.time) (subject : String)
    (hfew : ∀ window, (calls.countP fun call =>
      call.subject = subject ∧ limiter.windowID call.time = window) ≤ 2^53) :
    (∀ window, let n := calls.countP fun call =>
        call.subject = subject ∧ limiter.windowID call.time = window
      (((limiter.admissions calls ks).filter fun e =>
          e.1.subject = subject ∧ limiter.windowID e.1.time = window).map Prod.snd =
        List.replicate (min n limiter.limit.toInt.toNat) true ++
          List.replicate (n-limiter.limit.toInt.toNat) false)) ∧
    (∀ time, ((limiter.admissions calls ks).countP fun e =>
        e.2 ∧ e.1.subject = subject ∧ time ≤ e.1.time ∧ e.1.time ≤ time+minute.toInt) ≤
      2*limiter.limit.toInt.toNat) ∧
    (limiter.admissions calls ks).filter (fun e => e.1.subject = subject) =
      limiter.admissions (calls.filter fun call => call.subject = subject) ks := by
  have hothers := limiter.admissions_filter subject calls (fun _ _ => rfl : ks.Agree _ ks)
  have hquota := RateLimiter.admissions_subject hwindow h htimes hclock hfew
  rw [hquota] at hothers
  refine ⟨?_,?_,by rw [hothers,hquota]⟩
  · intro window
    have hkey := Quota.ration_key limiter.limit.toInt.toNat limiter.bucket (fun _ => 0)
      (subject,window) (calls.filter fun call => call.subject = subject)
    have hsame (call : RateCall) : (decide (limiter.bucket call = (subject,window)) &&
        decide (call.subject = subject)) =
          decide (call.subject = subject ∧ limiter.windowID call.time = window) := by
      rw [← Bool.decide_and,decide_eq_decide,RateLimiter.bucket,Prod.mk.injEq]
      exact and_iff_left_of_imp And.left
    rw [← hothers,List.filter_filter,List.countP_filter] at hkey
    simpa only [hsame,Nat.sub_zero] using hkey
  · intro time
    have hsubject : ((limiter.admissions calls ks).countP fun e =>
          e.2 ∧ e.1.subject = subject ∧ time ≤ e.1.time ∧ e.1.time ≤ time+minute.toInt) =
        ((limiter.admissions calls ks).filter fun e => e.1.subject = subject).countP fun e =>
          e.2 ∧ e.1.subject = subject ∧ time ≤ e.1.time ∧ e.1.time ≤ time+minute.toInt := by
      rw [List.countP_filter]
      apply List.countP_congr
      simp +contextual
    rw [hsubject,hothers]
    apply Quota.admitted_two (subject,time.tdiv 60000000000) (subject,time.tdiv 60000000000+1)
      fun call : RateCall => call.subject = subject ∧ time ≤ call.time ∧ call.time ≤ time+minute.toInt
    rintro call hcall ⟨rfl,hfrom,hto⟩
    have hclocked := hclock call (List.mem_filter.mp hcall).1
    simpa [RateLimiter.bucket] using RateLimiter.windowID_next hwindow hclocked hfrom hto

/-- Three calls of one subject, with another's in between whose name continues the first one's. -/
def burst : List RateCall :=
  [⟨10000000000,"credential"⟩,⟨11000000000,"credential:0"⟩,⟨12000000000,"credential"⟩,
    ⟨13000000000,"credential"⟩,⟨61000000000,"credential"⟩]

theorem commandRate_quota_burst :
    let limiter : RateLimiter := ⟨"csms",2,minute⟩
    ((limiter.admissions burst Keyspace.empty).filter fun e =>
        e.1.subject = "credential" ∧ limiter.windowID e.1.time = 0).map Prod.snd = [true,true,false] ∧
    ((limiter.admissions burst Keyspace.empty).countP fun e =>
      e.2 ∧ e.1.subject = "credential" ∧ 5000000000 ≤ e.1.time ∧
        e.1.time ≤ 5000000000+minute.toInt) ≤ 4 ∧
    (limiter.admissions burst Keyspace.empty).filter (fun e => e.1.subject = "credential") =
      limiter.admissions (burst.filter fun call => call.subject = "credential") Keyspace.empty := by
  obtain ⟨hfirst,htwice,hothers⟩ := commandRate_quota ⟨"csms",2,minute⟩ rfl
    (fun _ _ => rfl : RateLimiter.Unused _ Keyspace.empty 0) burst (by decide) (by decide) "credential"
    (fun _ => List.countP_le_length.trans (by decide))
  exact ⟨hfirst 0,htwice 5000000000,hothers⟩

/-- One second before the epoch, one after it, and after the counter of the first has run out. -/
def aroundEpoch : List RateCall :=
  [⟨-1000000000,"credential"⟩,⟨1000000000,"credential"⟩,⟨59500000000,"credential"⟩]

theorem commandRate_aroundEpoch :
    let limiter : RateLimiter := ⟨"csms",1,minute⟩
    (∀ call ∈ aroundEpoch, limiter.windowID call.time = 0) ∧
    (limiter.admissions aroundEpoch Keyspace.empty).map Prod.snd = [true,false,true] := by
  refine ⟨by decide,?_⟩
  decide +kernel

end CsmsPlatform
