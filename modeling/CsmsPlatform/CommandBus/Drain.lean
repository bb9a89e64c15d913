import CsmsPlatform.CommandBus.Poison
import CsmsPlatform.Framework.Redis.Backlog

/-!
# The consumer works off its stream

With every Redis call answered and no entry rejected, a round of `RunConsumer` goes on by one entry of
the stream, and a recovery takes up ten of the entries that an earlier consumer left pending, once they
have been idle for `pendingMinIdle`. So an entry is done after a number of rounds and recoveries that
the backlog gives.
-/

namespace CsmsPlatform

open Redis

variable {View Call Reply : Type}

def Decodable (fields : List (String × String)) : Prop := ∃ command, decodeCommand fields = .ok command

section Messages

variable {bus : Bus} {handler : Handler View Call Reply} {w : Surroundings View Reply} {o : String}
  {E : List (String × String) → Prop} {ks : Keyspace} {g : ConsumerGroup}

theorem finishMessage_stream (h : bus.Carries w o E ks) (hg : (bus.stream ks o).group consumerGroup = some g)
    (n : Nat) (message : StreamEntry) {result : Result} (hid : result.commandID ≠ "")
    (hrw : Rewritable w result) (events : List (ConsumerEvent Call)) :
    bus.stream (finishMessage bus w o n message result events ks).redis o =
      (bus.stream ks o).acknowledge consumerGroup [message.id] := by
  obtain ⟨content,henc⟩ := hrw n
  have hcomplete : bus.complete result (w.clock n) ks =
      (.ok (),bus.written ks (w.clock n) result.commandID content) := by
    simp only [Bus.complete,if_neg hid,henc,wrapFault,Bus.completion_apply h]
  obtain ⟨ks',hks',hremains⟩ := complete_carries h n hid hrw
  cases hcomplete.symm.trans hks'
  have hsame := bus.stream_written ks (w.clock n) result.commandID content o
  rcases Bus.ack_cases hremains.carries (w.clock (n+1)) o message with ⟨hnone,_⟩ | ⟨v,g',hv,hg',hack⟩
  · have hgroup := Bus.stream_group_none hnone
    rw [hsame,hg] at hgroup
    cases hgroup
  · have hstream : bus.stream ks o = v := hsame.symm.trans (Bus.stream_some hv)
    simp only [finishMessage,hcomplete,hack]
    rw [Bus.stream_putStream,if_pos rfl,hstream,StreamValue.acknowledge_one hg']

theorem processMessage_stream (henc : Encodable handler w o) (h : bus.Carries w o E ks)
    (hg : (bus.stream ks o).group consumerGroup = some g) (n : Nat) {message : StreamEntry}
    (hd : Decodable message.fields) :
    bus.stream (processMessage bus handler w o n message ks).redis o =
      (bus.stream ks o).acknowledge consumerGroup [message.id] := by
  obtain ⟨command,hd⟩ := hd
  have hne : command.id ≠ "" := ((validateCommand_ok_iff _).mp (decodeCommand_valid hd)).1.1
  obtain ⟨found,hfound,hrecord⟩ := completed_carries h command.id (w.clock n)
  simp only [processMessage,hd,hfound]
  cases found with
  | none =>
    apply finishMessage_stream h hg
    · rw [messageResult,runHandler_commandID]
      exact hne
    · exact henc (n+1) command
  | some result =>
    obtain ⟨hid,hrw⟩ := hrecord result rfl
    apply finishMessage_stream h hg
    · rw [messageResult,hid]
      exact hne
    · exact hrw

theorem processMessages_stream (henc : Encodable handler w o) (messages : List StreamEntry) (n : Nat)
    (h : bus.Carries w o E ks) (hg : (bus.stream ks o).group consumerGroup = some g)
    (hd : ∀ m ∈ messages, Decodable m.fields) :
    bus.stream (processMessages bus handler w o n messages ks).redis o =
      (bus.stream ks o).acknowledge consumerGroup (messages.map StreamEntry.id) := by
  induction messages generalizing n ks g with
  | nil => exact (StreamValue.acknowledge_nil hg).symm
  | cons message rest ih =>
    have hfirst := hd message List.mem_cons_self
    have hstream := processMessage_stream henc h hg n hfirst
    obtain ⟨command,hcommand⟩ := hfirst
    obtain ⟨ks',events,hp,_,hremains⟩ := processMessage_accepted henc h n hcommand
    rw [hp] at hstream
    have hself : (bus.stream ks' o).group consumerGroup =
        some { g with pending := g.pending.filter fun p => p.id ∉ [message.id] } := by
      rw [hstream,StreamValue.group_acknowledge hg]
      exact setGroup_self _ _ _
    have hrest := ih (n+5) hremains.carries hself fun m hm => hd m (List.mem_cons_of_mem message hm)
    simp only [processMessages,hp]
    rw [hrest,hstream,StreamValue.acknowledge_cons hg]
    rfl

end Messages

def RecoversFrom (w : Surroundings View Reply) (t : Int) (p : Progress Call) : Prop :=
  pendingMinIdle ≤ w.clock p.step-p.lastRecovery ∧ t ≤ w.clock p.step

instance (w : Surroundings View Reply) (t : Int) (p : Progress Call) : Decidable (RecoversFrom w t p) :=
  inferInstanceAs (Decidable (_ ∧ _))

/-- How many of the `n` rounds after the first `r` begin with a recovery at `t` or later. -/
def recoveries (bus : Bus) (handler : Handler View Call Reply) (w : Surroundings View Reply) (o : String)
    (ks : Keyspace) (t : Int) (r n : Nat) : Nat :=
  (List.range n).countP fun i => RecoversFrom w t (runConsumer bus handler w o ks (r+i))

def Progress.stream (bus : Bus) (o : String) (p : Progress Call) : StreamValue := bus.stream p.pass.redis o

/-- What the consumer was handed was in the stream and is acknowledged; the group accounts for the
rest. -/
structure Draining (bus : Bus) (o : String) (acked : List Nat) (p : Progress Call) : Prop where
  accounted : Accounted (p.stream bus o) consumerGroup (p.handed.flatten.map StreamEntry.id ++ acked)
  handed : ∀ m ∈ p.handed.flatten, m ∈ (p.stream bus o).entries

section Loop

variable {bus : Bus} {handler : Handler View Call Reply} {w : Surroundings View Reply} {o : String}
  {ks : Keyspace} {p : Progress Call} {acked : List Nat}

theorem arrive_drains (h : bus.Carries w o Decodable ks) (n : Nat)
    (hw : ∀ a ∈ w.arrivals n, Decodable a.1 ∧ a.2 = 0)
    (hacc : Accounted (bus.stream ks o) consumerGroup acked) :
    Accounted (bus.stream (arrive bus w o n ks) o) consumerGroup acked ∧
      (bus.stream ks o).Shrinks (bus.stream (arrive bus w o n ks) o) consumerGroup ∧
      (bus.stream (arrive bus w o n ks) o).group = (bus.stream ks o).group := by
  unfold arrive
  revert hw
  generalize w.arrivals n = arrivals
  intro hw
  induction arrivals generalizing ks with
  | nil => exact ⟨hacc,shrinks_refl _ _,rfl⟩
  | cons a rest ih =>
    obtain ⟨hdecodable,hzero⟩ := hw a List.mem_cons_self
    have happend : ∀ e ∈ ((bus.stream ks o).append streamMaxLen 0 a.1).entries, Decodable e.fields := by
      intro e he
      rcases List.mem_append.mp (List.mem_of_mem_drop he) with he | he
      · exact h.entries e he
      · rw [List.mem_singleton.mp he]
        exact hdecodable
    have hput := h.putStream happend id
    have hnext : bus.stream (ks.putStream (bus.commandStream o)
        ((bus.stream ks o).append streamMaxLen 0 a.1)) o = (bus.stream ks o).append streamMaxLen 0 a.1 := by
      rw [Bus.stream_putStream,if_pos rfl]
    rw [List.foldl_cons,xadd_stream (Bus.Holds.holdsStream h o),hzero]
    have haccounted := hacc.append streamMaxLen a.1
    rw [← hnext] at haccounted
    have hrest := ih hput.carries haccounted fun x hx => hw x (List.mem_cons_of_mem a hx)
    rw [hnext] at hrest
    exact ⟨hrest.1,(shrinks_append _ _ _ _).trans hrest.2.1,hrest.2.2⟩

theorem hand_drains (henc : Encodable handler w o) (hks : bus.Carries w o Decodable ks) {v : StreamValue}
    (hv : bus.stream ks o = v) {g : ConsumerGroup} (hg : v.group consumerGroup = some g)
    (h : ∀ m ∈ p.handed.flatten, m ∈ v.entries) {messages : List StreamEntry}
    (hmessages : ∀ m ∈ messages, m ∈ v.entries)
    (hacc : Accounted (v.acknowledge consumerGroup (messages.map StreamEntry.id)) consumerGroup
      (messages.map StreamEntry.id ++ (p.handed.flatten.map StreamEntry.id ++ acked))) :
    Draining bus o acked (hand bus handler w o p messages ks) ∧
      (hand bus handler w o p messages ks).stream bus o =
        v.acknowledge consumerGroup (messages.map StreamEntry.id) := by
  subst hv
  have hstream : (hand bus handler w o p messages ks).stream bus o =
      (bus.stream ks o).acknowledge consumerGroup (messages.map StreamEntry.id) :=
    processMessages_stream henc messages (p.step+1) hks hg fun m hm => hks.entries m (hmessages m hm)
  refine ⟨⟨?_,?_⟩,hstream⟩
  · rw [hstream]
    simpa [hand] using hacc
  · rw [hstream,StreamValue.group_acknowledge hg]
    intro m hm
    rcases List.mem_append.mp hm with hm | hm
    · exact hmessages m hm
    · exact h m hm

theorem recoverPass_due (handler : Handler View Call Reply)
    (hdue : pendingMinIdle ≤ w.clock p.step-p.lastRecovery) {messages : List StreamEntry}
    (he : bus.recoverPending o (w.clock p.step) (arrive bus w o p.step p.pass.redis) = (.ok messages,ks)) :
    ∃ t, recoverPass bus handler w o p =
      { hand bus handler w o p messages ks with lastRecovery := t } := by
  simp only [recoverPass,if_pos hdue,he,unlessReturned]
  split
  · exact ⟨_,rfl⟩
  · exact ⟨_,rfl⟩

/-- A recovery leaves no larger a backlog. One that is due once all pending entries are idle takes ten
of them. -/
theorem recoverPass_drains (henc : Encodable handler w o)
    (hw : ∀ n, ∀ a ∈ w.arrivals n, Decodable a.1 ∧ a.2 = 0) (h : Serving bus w o Decodable p)
    (hd : Draining bus o acked p) :
    Draining bus o acked (recoverPass bus handler w o p) ∧
      (p.stream bus o).Shrinks ((recoverPass bus handler w o p).stream bus o) consumerGroup ∧
      ∀ t, RecoversFrom w t p →
        (∀ q ∈ ((p.stream bus o).groupState consumerGroup).pending, q.deliveredAt+pendingMinIdle ≤ t) →
        (((recoverPass bus handler w o p).stream bus o).groupState consumerGroup).pending.length ≤
          ((p.stream bus o).groupState consumerGroup).pending.length-10 := by
  obtain ⟨hacc,hshrinks,hgroup⟩ := arrive_drains h.carries p.step (hw p.step) hd.accounted
  have hcarries := (arrive_remains h.carries p.step fun a ha => (hw p.step a ha).1).carries
  have hkept : ∀ m ∈ p.handed.flatten, m ∈ (bus.stream (arrive bus w o p.step p.pass.redis) o).entries :=
    fun m hm => hshrinks.entries (hd.handed m hm)
  by_cases hdue : pendingMinIdle ≤ w.clock p.step-p.lastRecovery
  · rcases Bus.recoverPending_cases hcarries (w.clock p.step) o with ⟨hnone,_⟩ | ⟨v,g,hv,hg,he⟩
    · rw [hgroup] at hnone
      exact absurd hnone h.group
    · have hstream := Bus.stream_some hv
      rw [hstream] at hacc hshrinks hkept hgroup
      obtain ⟨hclaimed,hless,hpending⟩ := hacc.claim_acknowledge hg (w.clock p.step) pendingMinIdle (10*10) 10
      obtain ⟨t',hpass⟩ := recoverPass_due handler hdue he
      have hput := hcarries.setGroup hv { g with
        pending := (claimScan v (w.clock p.step) pendingMinIdle (10*10) 10 g.pending).1 }
      have hmembers : ∀ m ∈ (claimScan v (w.clock p.step) pendingMinIdle (10*10) 10 g.pending).2,
          m ∈ v.entries := fun m hm => (claimScan_claimed _ _ _ _ _ m hm).1
      obtain ⟨hdraining,hafter⟩ := hand_drains (p := p) henc hput.carries
        (by rw [Bus.stream_putStream,if_pos rfl]) (setGroup_self _ _ _) hkept hmembers hclaimed
      rw [hpass]
      refine ⟨⟨hdraining.accounted,hdraining.handed⟩,?_,?_⟩
      · apply hshrinks.trans
        rw [← hafter] at hless
        exact hless
      · intro t hrecovers hidle
        have hsame : (p.stream bus o).groupState consumerGroup = g := by
          rw [StreamValue.groupState,Progress.stream,← hgroup,hg]
          rfl
        rw [← hafter] at hpending
        rw [hsame] at hidle ⊢
        have hlate : ∀ q ∈ g.pending, q.deliveredAt+pendingMinIdle ≤ w.clock p.step :=
          fun q hq => (hidle q hq).trans hrecovers.2
        calc _ = (unclaimed v (w.clock p.step) pendingMinIdle (10*10) 10 g.pending).length :=
              congrArg List.length hpending
          _ ≤ g.pending.length-10 := length_unclaimed_idle (by decide) hlate
  · have hpass : recoverPass bus handler w o p = { p with
        step := p.step+1, pass := ⟨.ok (),arrive bus w o p.step p.pass.redis,p.pass.events⟩ } := by
      simp only [recoverPass,if_neg hdue]
    rw [hpass]
    refine ⟨⟨hacc,hkept⟩,hshrinks,?_⟩
    intro t hrecovers
    exact absurd hrecovers.1 hdue

theorem readNew_apply {E : List (String × String) → Prop} (h : bus.Carries w o E ks) (now : Int)
    {g : ConsumerGroup} (hg : (bus.stream ks o).group consumerGroup = some g) :
    ks.stream (bus.commandStream o) = some (bus.stream ks o) ∧ bus.readNew o now ks =
      if (bus.stream ks o).undelivered g 1 = [] then (.ok none,ks)
      else (.ok (some ((bus.stream ks o).undelivered g 1)),ks.putStream (bus.commandStream o)
        ((bus.stream ks o).setGroup consumerGroup (g.deliver now ((bus.stream ks o).undelivered g 1)))) := by
  rcases @xreadGroup_stream ks _ consumerGroup (Bus.Holds.holdsStream h o) now 1 with
    ⟨hnone,_⟩ | ⟨v,g',hv,hg',he⟩
  · rw [Bus.stream_group_none hnone] at hg
    cases hg
  · rw [Bus.stream_some hv] at hg ⊢
    cases hg.symm.trans hg'
    refine ⟨hv,?_⟩
    simp only [Bus.readNew,wrapFault,he]
    by_cases hempty : v.undelivered g 1 = []
    · rw [if_pos hempty,if_pos hempty]
    · rw [if_neg hempty,if_neg hempty]

theorem readPass_drains (henc : Encodable handler w o)
    (hw : ∀ n, ∀ a ∈ w.arrivals n, Decodable a.1 ∧ a.2 = 0) (h : Serving bus w o Decodable p)
    (hd : Draining bus o acked p) :
    Draining bus o acked (readPass bus handler w o p) ∧
      (p.stream bus o).Shrinks ((readPass bus handler w o p).stream bus o) consumerGroup ∧
      ∀ e ∈ (p.stream bus o).entries, ((readPass bus handler w o p).stream bus o).backlog consumerGroup e.id ≤
        (p.stream bus o).backlog consumerGroup e.id-1 := by
  obtain ⟨hacc,hshrinks,hgroup⟩ := arrive_drains h.carries p.step (hw p.step) hd.accounted
  have hcarries := (arrive_remains h.carries p.step fun a ha => (hw p.step a ha).1).carries
  have hkept : ∀ m ∈ p.handed.flatten, m ∈ (bus.stream (arrive bus w o p.step p.pass.redis) o).entries :=
    fun m hm => hshrinks.entries (hd.handed m hm)
  obtain ⟨g,hg⟩ := Option.ne_none_iff_exists'.mp h.group
  rw [← hgroup] at hg
  obtain ⟨hv,he⟩ := readNew_apply hcarries (w.clock p.step) hg
  rcases undelivered_one hg with ⟨hempty,hzero⟩ | ⟨x,hx⟩
  · -- nothing to read: the stream is as the arrivals left it
    rw [if_pos hempty] at he
    have hpass : readPass bus handler w o p = { p with
        step := p.step+1, pass := ⟨.ok (),arrive bus w o p.step p.pass.redis,p.pass.events⟩ } := by
      simp only [readPass,he]
    rw [hpass]
    refine ⟨⟨hacc,hkept⟩,hshrinks,?_⟩
    intro e _
    exact (Nat.le_of_eq (hzero e.id)).trans (Nat.zero_le _)
  · rw [hx,if_neg (List.cons_ne_nil x [])] at he
    have hpass : readPass bus handler w o p = hand bus handler w o p [x]
        ((arrive bus w o p.step p.pass.redis).putStream (bus.commandStream o)
          ((bus.stream (arrive bus w o p.step p.pass.redis) o).setGroup consumerGroup
            (g.deliver (w.clock p.step) [x]))) := by
      simp only [readPass,he]
    obtain ⟨hread,hless,hbacklog⟩ := hacc.read_one hg hx (w.clock p.step)
    have hput := hcarries.setGroup hv (g.deliver (w.clock p.step) [x])
    have hmember : ∀ m ∈ [x], m ∈ (bus.stream (arrive bus w o p.step p.pass.redis) o).entries := by
      intro m hm
      rw [← hx] at hm
      exact ((hacc.undelivered_spec g 1).1 m hm).1
    obtain ⟨hdraining,hafter⟩ := hand_drains (p := p) henc hput.carries
      (by rw [Bus.stream_putStream,if_pos rfl]) (setGroup_self _ _ _) hkept hmember hread
    rw [← hpass] at hdraining hafter
    rw [List.map_cons,List.map_nil] at hafter
    rw [← hafter] at hless hbacklog
    refine ⟨hdraining,hshrinks.trans hless,?_⟩
    intro e he
    calc ((readPass bus handler w o p).stream bus o).backlog consumerGroup e.id
        = (bus.stream (arrive bus w o p.step p.pass.redis) o).backlog consumerGroup e.id-1 := hbacklog e.id
      _ ≤ (p.stream bus o).backlog consumerGroup e.id-1 :=
        Nat.sub_le_sub_right (hshrinks.backlog e.id (hd.accounted.bounded e he)) 1

theorem enterLoop_drains (ho : o ≠ "") (h : bus.Carries w o Decodable ks)
    (hacc : Accounted (bus.stream ks o) consumerGroup acked) :
    Draining bus o acked (enterLoop bus w o ks : Progress Call) := by
  simp only [enterLoop,if_neg ho]
  rcases Bus.createGroup_cases h (w.clock 0) o with ⟨_,he⟩ | ⟨hnone,he⟩
  · rw [he]
    exact ⟨hacc,fun _ hm => absurd hm List.not_mem_nil⟩
  · rw [he]
    have hstream : bus.stream (ks.putStream (bus.commandStream o)
        ((bus.stream ks o).setGroup consumerGroup ⟨0,[]⟩)) o =
        (bus.stream ks o).setGroup consumerGroup ⟨0,[]⟩ := by
      rw [Bus.stream_putStream,if_pos rfl]
    refine ⟨?_,fun _ hm => absurd hm List.not_mem_nil⟩
    have hcreate := hacc.create hnone
    rw [← hstream] at hcreate
    exact hcreate

theorem unlessReturned_ok (f : Progress Call → Progress Call) (hok : p.pass.outcome = .ok ()) :
    unlessReturned f p = f p := by
  simp only [unlessReturned,hok]

section Rounds

variable (henc : Encodable handler w o) (hw : ∀ n, ∀ a ∈ w.arrivals n, Decodable a.1 ∧ a.2 = 0)
  (ho : o ≠ "") (h : bus.Carries w o Decodable ks)

include henc hw ho h

theorem runConsumer_ok (r : Nat) : Serving bus w o Decodable (runConsumer bus handler w o ks r) ∧
    Served (runConsumer bus handler w o ks r).pass o (runConsumer bus handler w o ks r).handed := by
  have hserving := runConsumer_serving henc (fun n a ha => (hw n a ha).1) ho h r
  exact ⟨hserving,hserving.served_iff.mpr hserving.handed⟩

theorem runConsumer_round (r : Nat) :
    Serving bus w o Decodable (recoverPass bus handler w o (runConsumer bus handler w o ks r)) ∧
      runConsumer bus handler w o ks (r+1) =
        readPass bus handler w o (recoverPass bus handler w o (runConsumer bus handler w o ks r)) := by
  obtain ⟨hserving,hserved⟩ := runConsumer_ok henc hw ho h r
  have hrecover := recoverPass_serving henc (fun n a ha => (hw n a ha).1) hserving hserved.1
  have hok := (hrecover.served_iff.mpr hrecover.handed).1
  refine ⟨hrecover,?_⟩
  rw [runConsumer,unlessReturned_ok _ hserved.1,unlessReturned_ok _ hok]

theorem runConsumer_draining (hacc : Accounted (bus.stream ks o) consumerGroup acked) (r : Nat) :
    Draining bus o acked (runConsumer bus handler w o ks r) := by
  induction r with
  | zero => exact enterLoop_drains ho h hacc
  | succ r ih =>
    obtain ⟨hrecovered,hround⟩ := runConsumer_round henc hw ho h r
    have hfirst := recoverPass_drains henc hw (runConsumer_ok henc hw ho h r).1 ih
    rw [hround]
    exact (readPass_drains henc hw hrecovered hfirst.1).1

/-- What `n` rounds take from the backlog. -/
theorem runConsumer_shrinks (hacc : Accounted (bus.stream ks o) consumerGroup acked) (r n : Nat) (t : Int)
    (hidle : ∀ q ∈ (((runConsumer bus handler w o ks r).stream bus o).groupState consumerGroup).pending,
      q.deliveredAt+pendingMinIdle ≤ t) :
    ((runConsumer bus handler w o ks r).stream bus o).Shrinks
        ((runConsumer bus handler w o ks (r+n)).stream bus o) consumerGroup ∧
      (∀ e ∈ ((runConsumer bus handler w o ks r).stream bus o).entries,
        ((runConsumer bus handler w o ks (r+n)).stream bus o).backlog consumerGroup e.id ≤
          ((runConsumer bus handler w o ks r).stream bus o).backlog consumerGroup e.id-n) ∧
      (((runConsumer bus handler w o ks (r+n)).stream bus o).groupState consumerGroup).pending.length ≤
        (((runConsumer bus handler w o ks r).stream bus o).groupState consumerGroup).pending.length-
          10*recoveries bus handler w o ks t r n := by
  induction n with
  | zero => exact ⟨shrinks_refl _ _,fun _ _ => Nat.le_refl _,Nat.le_refl _⟩
  | succ n ih =>
    obtain ⟨hshrinks,hbacklog,hpending⟩ := ih
    have hdraining := runConsumer_draining henc hw ho h hacc (r+n)
    obtain ⟨hrecovered,hround⟩ := runConsumer_round henc hw ho h (r+n)
    obtain ⟨hd,hless,hten⟩ := recoverPass_drains henc hw (runConsumer_ok henc hw ho h (r+n)).1 hdraining
    obtain ⟨_,hless',hone⟩ := readPass_drains henc hw hrecovered hd
    rw [← Nat.add_assoc,hround]
    refine ⟨(hshrinks.trans hless).trans hless',?_,?_⟩
    · intro e he
      have hmember := hless.entries (hshrinks.entries he)
      have hbound := hdraining.accounted.bounded e (hshrinks.entries he)
      calc _ ≤ _ := hone e hmember
        _ ≤ ((runConsumer bus handler w o ks (r+n)).stream bus o).backlog consumerGroup e.id-1 :=
          Nat.sub_le_sub_right (hless.backlog e.id hbound) 1
        _ ≤ ((runConsumer bus handler w o ks r).stream bus o).backlog consumerGroup e.id-n-1 :=
          Nat.sub_le_sub_right (hbacklog e he) 1
        _ = _ := Nat.sub_sub _ n 1
    · apply hless'.length.trans
      rw [recoveries,List.range_succ,List.countP_append,List.countP_singleton]
      change _ ≤ _-10*(recoveries bus handler w o ks t r n+_)
      by_cases hrecovers : RecoversFrom w t (runConsumer bus handler w o ks (r+n))
      · have htaken := hten t hrecovers fun q hq => hidle q (hshrinks.pending hq)
        rw [if_pos (decide_eq_true hrecovers)]
        omega
      · have hsame := hless.length
        rw [if_neg (by simpa using hrecovers)]
        omega

end Rounds

end Loop

/-- An entry is done once the rounds have come to it and the recoveries have taken up what was left
pending. -/
theorem runConsumer_drains (bus : Bus) (handler : Handler View Call Reply) (w : Surroundings View Reply)
    (o : String) (ho : o ≠ "") (henc : Encodable handler w o)
    (hw : ∀ n, ∀ a ∈ w.arrivals n, Decodable a.1 ∧ a.2 = 0) (ks : Keyspace) (hready : bus.Ready w ks)
    (hentries : ∀ e ∈ (bus.stream ks o).entries, Decodable e.fields) (acked : List Nat)
    (hacc : Accounted (bus.stream ks o) consumerGroup acked) (r n : Nat) (t : Int) (e : StreamEntry)
    (he : e ∈ ((runConsumer bus handler w o ks r).stream bus o).entries)
    (hbacklog : ((runConsumer bus handler w o ks r).stream bus o).backlog consumerGroup e.id ≤ n)
    (hidle : ∀ q ∈ (((runConsumer bus handler w o ks r).stream bus o).groupState consumerGroup).pending,
      q.deliveredAt+pendingMinIdle ≤ t)
    (hpending : (((runConsumer bus handler w o ks r).stream bus o).groupState consumerGroup).pending.length ≤
      10*recoveries bus handler w o ks t r n) :
    (runConsumer bus handler w o ks (r+n)).pass.outcome = .ok () ∧
      (e.id ∈ acked ∨ ∃ command, decodeCommand e.fields = .ok command ∧
        Done (runConsumer bus handler w o ks (r+n)).pass.events o e command) := by
  have h := hready.carries hentries
  obtain ⟨hserving,hserved⟩ := runConsumer_ok henc hw ho h (r+n)
  have hdraining := runConsumer_draining henc hw ho h hacc (r+n)
  obtain ⟨hshrinks,hdelivered,hrest⟩ := runConsumer_shrinks henc hw ho h hacc r n t hidle
  have hmember := hshrinks.entries he
  refine ⟨hserved.1,?_⟩
  obtain ⟨g,hg⟩ := Option.ne_none_iff_exists'.mp hserving.group
  have hstate := StreamValue.groupState_some hg
  have hreached : e.id ≤ g.lastDelivered := by
    have hzero := hdelivered e he
    rw [Nat.sub_eq_zero_of_le hbacklog] at hzero
    rw [← hstate]
    exact backlog_zero hmember (Nat.le_zero.mp hzero)
  have hnone : g.pending = [] := by
    apply List.eq_nil_of_length_eq_zero
    rw [Nat.sub_eq_zero_of_le hpending] at hrest
    rw [← hstate]
    exact Nat.le_zero.mp hrest
  rcases hdraining.accounted.covered g hg e hmember hreached with hacked | ⟨q,hq,_⟩
  · rcases List.mem_append.mp hacked with hhanded | hbefore
    · obtain ⟨m,hm,hid⟩ := List.mem_map.mp hhanded
      cases hdraining.accounted.eq_of_id (hdraining.handed m hm) hmember hid
      obtain ⟨batch,hbatch,hm⟩ := List.mem_flatten.mp hm
      obtain ⟨command,hcommand⟩ := hserving.handed batch hbatch e hm
      exact .inr ⟨command,hcommand,hserved.2 batch hbatch e hm command hcommand⟩
    · exact .inl hbefore
  · rw [hnone] at hq
    cases hq

/-- Two commands, of which an earlier consumer had read the first when it went down. -/
def leftStream : StreamValue :=
  let published := ((StreamValue.new.append streamMaxLen 0 (resetFieldsOf "4f1e")).append streamMaxLen 0
    (resetFieldsOf "4f1f")).setGroup consumerGroup ⟨0,[]⟩
  published.setGroup consumerGroup
    ((⟨0,[]⟩ : ConsumerGroup).deliver 1767225600000000000 (published.undelivered ⟨0,[]⟩ 1))

def leftRedis : Keyspace :=
  Keyspace.empty.putStream (singleRuntime.bus.commandStream "runtime-a") leftStream

theorem runConsumer_drains_leftStream :
    let p := consumeAt 1767225610000000000 (fun _ => []) leftRedis 1
    p.pass.outcome = .ok () ∧ ∀ e ∈ leftStream.entries, ∃ command,
      decodeCommand e.fields = .ok command ∧ Done p.pass.events "runtime-a" e command := by
  have hdecodes : ∀ e ∈ leftStream.entries, (decodeCommand e.fields).isOk = true := by decide +kernel
  have hentries : ∀ e ∈ leftStream.entries, Decodable e.fields := by
    intro e he
    have hd := hdecodes e he
    cases hc : decodeCommand e.fields with
    | error err =>
      rw [hc] at hd
      cases hd
    | ok command => exact ⟨command,hc⟩
  have hstream : singleRuntime.bus.stream leftRedis "runtime-a" = leftStream := by
    rw [leftRedis,Bus.stream_putStream,if_pos rfl]
  have hacc : Accounted leftStream consumerGroup [] :=
    (((accounted_new.append streamMaxLen _).append streamMaxLen _).create rfl).deliver
      (setGroup_self _ _ _) 1767225600000000000 1
  have hready : singleRuntime.bus.Ready (instantOf 1767225610000000000 fun _ => []) leftRedis :=
    Bus.Holds.putStream (Bus.Unused.holds (S := fun _ _ => True) ⟨fun _ => rfl,fun _ => rfl,fun _ => rfl⟩)
      trivial fun _ _ _ _ => trivial
  -- the backlog with which the consumer starts
  have hstart : let v := (runConsumer singleRuntime.bus (resetHandler ⟨id,id⟩)
        (instantOf 1767225610000000000 fun _ => []) "runtime-a" leftRedis 0).stream singleRuntime.bus "runtime-a"
      v.entries = leftStream.entries ∧ (∀ e ∈ leftStream.entries, v.backlog consumerGroup e.id ≤ 1) ∧
      (v.groupState consumerGroup).pending = [⟨1,1767225600000000000⟩] := by decide +kernel
  obtain ⟨hsame,hbacklog,hpending⟩ := hstart
  have hrecoveries : recoveries singleRuntime.bus (resetHandler ⟨id,id⟩)
      (instantOf 1767225610000000000 fun _ => []) "runtime-a" leftRedis 1767225610000000000 0 1 = 1 := by
    decide +kernel
  have hone (e : StreamEntry) (he : e ∈ leftStream.entries) :=
    runConsumer_drains singleRuntime.bus (resetHandler ⟨id,id⟩) (instantOf 1767225610000000000 fun _ => [])
      "runtime-a" (by decide) (instantOf_encodable (by decide +kernel) _ _) (fun _ => List.forall_mem_nil _)
      leftRedis hready (by rw [hstream]; exact hentries) [] (by rw [hstream]; exact hacc) 0 1
      1767225610000000000 e (by rw [hsame]; exact he) (hbacklog e he)
      (by
        rw [hpending]
        intro q hq
        rw [List.mem_singleton.mp hq]
        decide +kernel)
      (by
        rw [hpending,hrecoveries]
        exact Nat.le_add_left 1 9)
  have hfirst : (⟨1,resetFieldsOf "4f1e"⟩ : StreamEntry) ∈ leftStream.entries := by decide +kernel
  simp only [Nat.zero_add] at hone
  simp only [consumeAt]
  refine ⟨(hone _ hfirst).1,?_⟩
  intro e he
  exact (hone e he).2.resolve_left List.not_mem_nil

end CsmsPlatform
