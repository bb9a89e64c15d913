import CsmsPlatform.CommandBus.Consumer
import CsmsPlatform.CommandBus.Delivery

/-!
# A malformed entry stops its batch

`processMessages` returns the error of the first entry that `decodeCommand` rejects. So with every
Redis call answered and every result encodable, a batch is worked off and `RunConsumer` goes on just
if no entry it was handed is rejected.
-/

namespace CsmsPlatform

open Redis

variable {View Call Reply : Type}

/-- The result can be encoded at every instant of the run. -/
def Rewritable (w : Surroundings View Reply) (result : Result) : Prop :=
  ∀ n, ∃ content, encodeResult (result.stamp (w.clock n)) = some content

/-- The content encodes a result of the command that can be encoded again. -/
def Readable (w : Surroundings View Reply) (id content : String) : Prop :=
  ∃ result, result.commandID = id ∧ encodeResult result = some content ∧ Rewritable w result

/-- The keys of the bus hold what the bus wrote. -/
def Bus.Ready (bus : Bus) (w : Surroundings View Reply) (ks : Keyspace) : Prop :=
  bus.Holds (fun _ _ => True) (Readable w) ks

def Bus.Carries (bus : Bus) (w : Surroundings View Reply) (o : String)
    (E : List (String × String) → Prop) (ks : Keyspace) : Prop :=
  bus.Holds (fun o' v => o' = o → ∀ e ∈ v.entries, E e.fields) (Readable w) ks

/-- Every result of the handler can be encoded. -/
def Encodable (handler : Handler View Call Reply) (w : Surroundings View Reply) (o : String) : Prop :=
  ∀ n command, Rewritable w (runHandler handler w o n command).1

/-- The entry's command was committed and the entry acknowledged. -/
def Done (events : List (ConsumerEvent Call)) (o : String) (m : StreamEntry) (command : Command) : Prop :=
  .acked o m ∈ events ∧ ∃ tr, .committed tr ∈ events ∧ tr.result.commandID = command.id

theorem Done.mono {events events' : List (ConsumerEvent Call)} {o : String} {m : StreamEntry}
    {command : Command} (h : Done events o m command) (hsub : events ⊆ events') :
    Done events' o m command := by
  obtain ⟨hack,tr,hcommit,hid⟩ := h
  exact ⟨hsub hack,tr,hsub hcommit,hid⟩

/-- No error was returned, and every accepted entry of the batches is done. -/
def Served (pass : Pass Call) (o : String) (batches : List (List StreamEntry)) : Prop :=
  pass.outcome = .ok () ∧ ∀ batch ∈ batches, ∀ m ∈ batch, ∀ command,
    decodeCommand m.fields = .ok command → Done pass.events o m command

def Accepted (batches : List (List StreamEntry)) : Prop :=
  ∀ batch ∈ batches, ∀ m ∈ batch, ∃ command, decodeCommand m.fields = .ok command

section Results

variable {w : Surroundings View Reply}

theorem Rewritable.stamp {result : Result} (h : Rewritable w result) (n : Nat) :
    Rewritable w (result.stamp (w.clock n)) := by
  intro k
  have htwice : (result.stamp (w.clock n)).stamp (w.clock k) = result.stamp (w.clock n) ∨
      (result.stamp (w.clock n)).stamp (w.clock k) = result.stamp (w.clock k) := by
    unfold Result.stamp
    by_cases hz : result.completedAt = zeroTime
    · by_cases hn : w.clock n = zeroTime
      · exact .inr (by simp [hz,hn])
      · exact .inl (by simp [hz,hn])
    · exact .inl (by simp [hz])
  rcases htwice with he | he
  · rw [he]
    exact h n
  · rw [he]
    exact h k

theorem Readable.decode {id content : String} {result : Result} (h : Readable w id content)
    (hd : decodeResult content = some result) : result.commandID = id ∧ Rewritable w result := by
  obtain ⟨r,hid,henc,hrw⟩ := h
  rw [(encodeResult_stored henc).1] at hd
  cases hd
  refine ⟨hid,?_⟩
  intro n
  obtain ⟨v,hv⟩ := encodeResult_payload henc
  have hstamp : r.stored.stamp (w.clock n) = (r.stamp (w.clock n)).stored := by
    by_cases hz : r.completedAt = zeroTime <;> simp [Result.stamp,Result.stored,hz]
  have hpayload : payloadValue (r.stamp (w.clock n)).payload = some v := by
    unfold Result.stamp
    split <;> exact hv
  rw [hstamp,encodeResult_eq_stored hpayload]
  exact hrw n

theorem runHandler_commandID (handler : Handler View Call Reply) (o : String) (n : Nat)
    (command : Command) : (runHandler handler w o n command).1.commandID = command.id := by
  unfold runHandler
  split <;> simp

/-- A handler's result that it leaves undated can be encoded, when its payload is JSON and the clock
shows years that RFC 3339 can write. -/
theorem rewritable_seal {result : Result} {v : Json.Value} (hp : payloadValue result.payload = some v)
    (hz : result.completedAt = zeroTime) (hclock : ∀ n, ∃ t, timeValue (w.clock n) = some t)
    (command : Command) (n : Nat) : Rewritable w (result.seal command (w.clock n)) := by
  have hsealed : Rewritable w { result with commandID := command.id } := by
    intro k
    obtain ⟨t,ht⟩ := hclock k
    simp [Result.stamp,hz,encodeResult,hp,ht]
  exact hsealed.stamp n

theorem resetHandler_encodable (texts : ErrorTexts) {w : Surroundings RuntimeView (Except String String)}
    (hclock : ∀ n, ∃ t, timeValue (w.clock n) = some t)
    (hreply : ∀ n payload, w.reply n = .ok payload → ∃ v, payloadValue (some payload) = some v)
    (o : String) : Encodable (resetHandler texts) w o := by
  have hfailed (code description : String) (command : Command) (n : Nat) :
      Rewritable w ((failed code description).seal command (w.clock n)) :=
    rewritable_seal (v := .null) rfl rfl hclock command n
  have hreset (reply : Except String String) (command : Command) (n : Nat)
      (h : ∀ payload, reply = .ok payload → ∃ v, payloadValue (some payload) = some v) :
      Rewritable w ((resetResult reply).seal command (w.clock n)) := by
    cases reply with
    | error err => exact hfailed _ _ _ _
    | ok payload =>
      obtain ⟨v,hv⟩ := h payload rfl
      exact rewritable_seal hv rfl hclock command n
  intro n command
  unfold runHandler
  split
  · next result he =>
    simp only [resetHandler] at he
    split at he
    · next r hh =>
      cases he
      obtain ⟨code,description,rfl⟩ := handleCommand_respond hh
      exact hfailed _ _ _ _
    · cases he
  · next call he =>
    simp only [resetHandler]
    split
    · exact hreset _ _ _ nofun
    · exact hreset _ _ _ (hreply n)

end Results

section Messages

variable {bus : Bus} {handler : Handler View Call Reply} {w : Surroundings View Reply} {o : String}
  {E : List (String × String) → Prop} {ks : Keyspace}

theorem Bus.Ready.carries (h : bus.Ready w ks) (hE : ∀ e ∈ (bus.stream ks o).entries, E e.fields) :
    bus.Carries w o E ks where
  streams o' item hi := by
    obtain ⟨v,rfl,_⟩ := h.streams o' item hi
    refine ⟨v,rfl,?_⟩
    rintro rfl
    have hv : ks.stream (bus.commandStream o') = some v := by simp only [Keyspace.stream,hi]
    rw [Bus.stream_some hv] at hE
    exact hE
  results := h.results
  completions := h.completions

theorem Bus.Carries.entries (h : bus.Carries w o E ks) : ∀ e ∈ (bus.stream ks o).entries, E e.fields := by
  unfold Bus.stream
  cases hs : ks.stream (bus.commandStream o) with
  | none => exact fun _ => List.not_mem_nil.elim
  | some v => exact Bus.Holds.stream h hs rfl

/-- What each call leaves: keys the bus can go on with, and the consumer group. -/
structure Bus.Remains (bus : Bus) (w : Surroundings View Reply) (o : String)
    (E : List (String × String) → Prop) (ks ks' : Keyspace) : Prop where
  carries : bus.Carries w o E ks'
  group : (bus.stream ks o).group consumerGroup ≠ none → (bus.stream ks' o).group consumerGroup ≠ none

theorem Bus.Carries.remains (h : bus.Carries w o E ks) : bus.Remains w o E ks ks := ⟨h,id⟩

theorem Bus.Remains.trans {ks' ks'' : Keyspace} (h : bus.Remains w o E ks ks')
    (h' : bus.Remains w o E ks' ks'') : bus.Remains w o E ks ks'' :=
  ⟨h'.carries,fun hg => h'.group (h.group hg)⟩

theorem Bus.Carries.putStream (h : bus.Carries w o E ks) {v : StreamValue}
    (hE : ∀ e ∈ v.entries, E e.fields)
    (hv : (bus.stream ks o).group consumerGroup ≠ none → v.group consumerGroup ≠ none) :
    bus.Remains w o E ks (ks.putStream (bus.commandStream o) v) := by
  refine ⟨Bus.Holds.putStream h (fun _ => hE) fun _ _ _ hw => hw,?_⟩
  rw [Bus.stream_putStream,if_pos rfl]
  exact hv

theorem Bus.Carries.setGroup (h : bus.Carries w o E ks) {v : StreamValue}
    (hv : ks.stream (bus.commandStream o) = some v) (g : ConsumerGroup) :
    bus.Remains w o E ks (ks.putStream (bus.commandStream o) (v.setGroup consumerGroup g)) := by
  have hE : ∀ e ∈ v.entries, E e.fields := Bus.Holds.stream h hv rfl
  refine h.putStream hE ?_
  intro _
  simp [StreamValue.setGroup]

theorem completed_carries (h : bus.Carries w o E ks) (id : String) (now : Int) :
    ∃ found, bus.completed id now ks = (.ok found,ks) ∧
      ∀ result ∈ found, result.commandID = id ∧ Rewritable w result := by
  rcases Bus.completed_cases h now id with
    ⟨content,err,hread,hd,_⟩ | ⟨_,he⟩ | ⟨content,e,result,hk,hd,he⟩
  · obtain ⟨r,_,henc,_⟩ := hread
    rw [(encodeResult_stored henc).1] at hd
    cases hd
  · exact ⟨none,he,nofun⟩
  · obtain ⟨text,e',hitem,hread⟩ := h.completions id _ hk
    cases hitem
    refine ⟨some result,he,?_⟩
    intro r hr
    cases hr
    exact hread.decode hd

theorem complete_carries (h : bus.Carries w o E ks) (n : Nat) {result : Result} (hid : result.commandID ≠ "")
    (hrw : Rewritable w result) :
    ∃ ks', bus.complete result (w.clock n) ks = (.ok (),ks') ∧ bus.Remains w o E ks ks' := by
  obtain ⟨content,henc⟩ := hrw n
  have happly : bus.complete result (w.clock n) ks =
      (.ok (),bus.written ks (w.clock n) result.commandID content) := by
    simp only [Bus.complete,if_neg hid,henc,wrapFault,Bus.completion_apply h]
  have hread : Readable w result.commandID content := ⟨_,stamp_commandID _ _,henc,hrw.stamp n⟩
  refine ⟨_,happly,?_,?_⟩
  · exact Bus.Holds.written h (fun _ _ hv => hv) (fun _ _ hr => hr) _ hread
  · rw [Bus.stream_written]
    exact id

theorem ack_carries (h : bus.Carries w o E ks) (message : StreamEntry) (now : Int) :
    ∃ ks', bus.ack o message now ks = (.ok (),ks') ∧ bus.Remains w o E ks ks' := by
  rcases Bus.ack_cases h now o message with ⟨_,he⟩ | ⟨v,g,hv,_,he⟩
  · exact ⟨_,he,h.remains⟩
  · exact ⟨_,he,h.setGroup hv _⟩

theorem finishMessage_carries (h : bus.Carries w o E ks) (n : Nat) (message : StreamEntry) {result : Result}
    (hid : result.commandID ≠ "") (hrw : Rewritable w result) (events : List (ConsumerEvent Call)) :
    ∃ ks' tr, finishMessage bus w o n message result events ks =
        ⟨.ok (),ks',.acked o message::.committed tr::events⟩ ∧
      tr.result.commandID = result.commandID ∧ bus.Remains w o E ks ks' := by
  obtain ⟨ks₁,hcomplete,hks₁⟩ := complete_carries h n hid hrw
  obtain ⟨ks₂,hack,hks₂⟩ := ack_carries hks₁.carries message (w.clock (n+1))
  refine ⟨ks₂,⟨result.stamp (w.clock n),w.clock n,ks,ks₁⟩,?_,stamp_commandID _ _,hks₁.trans hks₂⟩
  simp only [finishMessage,hcomplete,hack]

theorem processMessage_accepted (henc : Encodable handler w o) (h : bus.Carries w o E ks) (n : Nat)
    {message : StreamEntry} {command : Command} (hd : decodeCommand message.fields = .ok command) :
    ∃ ks' events, processMessage bus handler w o n message ks = ⟨.ok (),ks',events⟩ ∧
      Done events o message command ∧ bus.Remains w o E ks ks' := by
  have hne : command.id ≠ "" := ((validateCommand_ok_iff _).mp (decodeCommand_valid hd)).1.1
  obtain ⟨found,hfound,hrecord⟩ := completed_carries h command.id (w.clock n)
  have hresult : (messageResult handler w o (n+1) command found).1.commandID = command.id ∧
      Rewritable w (messageResult handler w o (n+1) command found).1 := by
    cases found with
    | none => exact ⟨runHandler_commandID handler o (n+1) command,henc (n+1) command⟩
    | some result => exact hrecord result rfl
  obtain ⟨hid,hrw⟩ := hresult
  obtain ⟨ks',tr,hfinish,htr,hks'⟩ := finishMessage_carries h (n+3) message (hid ▸ hne) hrw
    (messageResult handler w o (n+1) command found).2
  have hp : processMessage bus handler w o n message ks = ⟨.ok (),ks',
      .acked o message::.committed tr::(messageResult handler w o (n+1) command found).2⟩ := by
    simp only [processMessage,hd,hfound]
    exact hfinish
  refine ⟨ks',_,hp,?_,hks'⟩
  exact ⟨List.mem_cons_self,tr,List.mem_cons_of_mem _ List.mem_cons_self,htr.trans hid⟩

theorem processMessage_rejected (n : Nat) {message : StreamEntry} {err : CodecError}
    (hd : decodeCommand message.fields = .error err) :
    processMessage bus handler w o n message ks = ⟨.error (.codec err),ks,[]⟩ := by
  simp only [processMessage,hd]

/-- What a batch came to: all of it was done, or an entry was rejected. -/
theorem processMessages_spec (henc : Encodable handler w o) (messages : List StreamEntry) (n : Nat)
    (h : bus.Carries w o E ks) :
    bus.Remains w o E ks (processMessages bus handler w o n messages ks).redis ∧
    (((processMessages bus handler w o n messages ks).outcome = .ok () ∧
        ∀ m ∈ messages, ∃ command, decodeCommand m.fields = .ok command ∧
          Done (processMessages bus handler w o n messages ks).events o m command) ∨
      ∃ m ∈ messages, ∃ err, decodeCommand m.fields = .error err ∧
        (processMessages bus handler w o n messages ks).outcome = .error (.codec err)) := by
  induction messages generalizing n ks with
  | nil => exact ⟨h.remains,.inl ⟨rfl,nofun⟩⟩
  | cons message rest ih =>
    cases hd : decodeCommand message.fields with
    | error err =>
      have hp := @processMessage_rejected _ _ _ bus handler w o ks n message err hd
      simp only [processMessages,hp]
      exact ⟨h.remains,.inr ⟨message,List.mem_cons_self,err,hd,rfl⟩⟩
    | ok command =>
      obtain ⟨ks',events,hp,hdone,hks'⟩ := processMessage_accepted henc h n hd
      obtain ⟨hrest,hcases⟩ := ih (n+5) hks'.carries
      simp only [processMessages,hp]
      refine ⟨hks'.trans hrest,?_⟩
      rcases hcases with ⟨hok,hall⟩ | ⟨m,hm,err,hbad,herr⟩
      · refine .inl ⟨hok,?_⟩
        intro m hm
        rcases List.mem_cons.mp hm with rfl | hm
        · exact ⟨command,hd,hdone.mono (List.subset_append_right _ _)⟩
        · obtain ⟨c,hc,hdc⟩ := hall m hm
          exact ⟨c,hc,hdc.mono (List.subset_append_left _ _)⟩
      · exact .inr ⟨m,List.mem_cons_of_mem _ hm,err,hbad,herr⟩

end Messages

section Loop

variable {bus : Bus} {handler : Handler View Call Reply} {w : Surroundings View Reply} {o : String}
  {E : List (String × String) → Prop} {ks : Keyspace} {p : Progress Call}

/-- Between its calls the consumer has done all it was handed, or has returned over an entry that was
rejected. -/
structure Serving (bus : Bus) (w : Surroundings View Reply) (o : String)
    (E : List (String × String) → Prop) (p : Progress Call) : Prop where
  carries : bus.Carries w o E p.pass.redis
  group : (bus.stream p.pass.redis o).group consumerGroup ≠ none
  handed : ∀ batch ∈ p.handed, ∀ m ∈ batch, E m.fields
  verdict : (Served p.pass o p.handed ∧ Accepted p.handed) ∨
    ((∃ err, p.pass.outcome = .error (.codec err)) ∧ ¬Accepted p.handed)

theorem Serving.served (h : Serving bus w o E p) (hok : p.pass.outcome = .ok ()) :
    Served p.pass o p.handed ∧ Accepted p.handed := by
  rcases h.verdict with hv | ⟨⟨err,herr⟩,_⟩
  · exact hv
  · cases hok.symm.trans herr

theorem Serving.served_iff (h : Serving bus w o E p) : Served p.pass o p.handed ↔ Accepted p.handed := by
  rcases h.verdict with hv | ⟨⟨err,herr⟩,hrejected⟩
  · exact iff_of_true hv.1 hv.2
  · refine iff_of_false ?_ hrejected
    intro hserved
    cases hserved.1.symm.trans herr

theorem arrive_remains (h : bus.Carries w o E ks) (n : Nat) (hE : ∀ a ∈ w.arrivals n, E a.1) :
    bus.Remains w o E ks (arrive bus w o n ks) := by
  unfold arrive
  revert hE
  generalize w.arrivals n = arrivals
  intro hE
  induction arrivals generalizing ks with
  | nil => exact h.remains
  | cons a rest ih =>
    have happend : ∀ e ∈ ((bus.stream ks o).append streamMaxLen a.2 a.1).entries, E e.fields := by
      intro e he
      rcases List.mem_append.mp (List.mem_of_mem_drop he) with he | he
      · exact h.entries e he
      · rw [List.mem_singleton.mp he]
        exact hE a List.mem_cons_self
    have hput := h.putStream happend id
    rw [List.foldl_cons,xadd_stream (Bus.Holds.holdsStream h o)]
    exact hput.trans (ih hput.carries fun x hx => hE x (List.mem_cons_of_mem _ hx))

theorem hand_serving (henc : Encodable handler w o) (h : Serving bus w o E p)
    (hok : p.pass.outcome = .ok ()) (hks : bus.Remains w o E p.pass.redis ks)
    {messages : List StreamEntry} (hfields : ∀ m ∈ messages, E m.fields) :
    Serving bus w o E (hand bus handler w o p messages ks) := by
  obtain ⟨hserved,haccepted⟩ := h.served hok
  obtain ⟨hremains,hcases⟩ := processMessages_spec henc messages (p.step+1) hks.carries
  refine ⟨hremains.carries,hremains.group (hks.group h.group),
    List.forall_mem_cons.mpr ⟨hfields,h.handed⟩,?_⟩
  rcases hcases with ⟨hdone,hall⟩ | ⟨m,hmem,err,hbad,herr⟩
  · refine .inl ⟨⟨hdone,?_⟩,?_⟩
    · intro batch hbatch m hm command hd
      rcases List.mem_cons.mp hbatch with rfl | hbatch
      · obtain ⟨c,hc,hdone⟩ := hall m hm
        cases hc.symm.trans hd
        exact hdone.mono (List.subset_append_left _ _)
      · exact (hserved.2 batch hbatch m hm command hd).mono (List.subset_append_right _ _)
    · intro batch hbatch m hm
      rcases List.mem_cons.mp hbatch with rfl | hbatch
      · obtain ⟨c,hc,_⟩ := hall m hm
        exact ⟨c,hc⟩
      · exact haccepted batch hbatch m hm
  · refine .inr ⟨⟨err,herr⟩,?_⟩
    intro ha
    obtain ⟨c,hc⟩ := ha messages List.mem_cons_self m hmem
    cases hc.symm.trans hbad

theorem Serving.idle (h : Serving bus w o E p) (hok : p.pass.outcome = .ok ())
    (hks : bus.Remains w o E p.pass.redis ks) (n : Nat) :
    Serving bus w o E { p with step := n, pass := ⟨.ok (),ks,p.pass.events⟩ } := by
  obtain ⟨hserved,haccepted⟩ := h.served hok
  exact ⟨hks.carries,hks.group h.group,h.handed,.inl ⟨⟨rfl,hserved.2⟩,haccepted⟩⟩

theorem unlessReturned_serving {f : Progress Call → Progress Call} (h : Serving bus w o E p)
    (hf : p.pass.outcome = .ok () → Serving bus w o E (f p)) : Serving bus w o E (unlessReturned f p) := by
  unfold unlessReturned
  split
  · exact h
  · next hok => exact hf hok

theorem recoverPass_serving (henc : Encodable handler w o) (hE : ∀ n, ∀ a ∈ w.arrivals n, E a.1)
    (h : Serving bus w o E p) (hok : p.pass.outcome = .ok ()) :
    Serving bus w o E (recoverPass bus handler w o p) := by
  have harrive := arrive_remains h.carries p.step (hE p.step)
  simp only [recoverPass]
  split
  · rcases Bus.recoverPending_cases harrive.carries (w.clock p.step) o with ⟨hn,_⟩ | ⟨v,g,hv,_,he⟩
    · exact absurd hn (harrive.group h.group)
    · rw [he]
      have hclaim := harrive.trans (harrive.carries.setGroup hv { g with
        pending := (claimScan v (w.clock p.step) pendingMinIdle (10*10) 10 g.pending).1 })
      have hfields : ∀ m ∈ (claimScan v (w.clock p.step) pendingMinIdle (10*10) 10 g.pending).2,
          E m.fields := by
        intro m hm
        exact Bus.Holds.stream harrive.carries hv rfl m (claimScan_claimed _ _ _ _ _ m hm).1
      have hhand := hand_serving henc h hok hclaim hfields
      exact unlessReturned_serving hhand fun _ => ⟨hhand.carries,hhand.group,hhand.handed,hhand.verdict⟩
  · exact h.idle hok harrive (p.step+1)

theorem readPass_serving (henc : Encodable handler w o) (hE : ∀ n, ∀ a ∈ w.arrivals n, E a.1)
    (h : Serving bus w o E p) (hok : p.pass.outcome = .ok ()) :
    Serving bus w o E (readPass bus handler w o p) := by
  have harrive := arrive_remains h.carries p.step (hE p.step)
  simp only [readPass]
  rcases Bus.readNew_cases harrive.carries (w.clock p.step) o with ⟨hn,_⟩ | he | ⟨v,g,hv,_,he⟩
  · exact absurd hn (harrive.group h.group)
  · rw [he]
    exact h.idle hok harrive (p.step+1)
  · rw [he]
    have hdeliver := harrive.trans (harrive.carries.setGroup hv
      (g.deliver (w.clock p.step) (v.undelivered g 1)))
    refine hand_serving henc h hok hdeliver ?_
    intro m hm
    exact Bus.Holds.stream harrive.carries hv rfl m (List.mem_filter.mp (List.mem_of_mem_take hm)).1

theorem enterLoop_serving (ho : o ≠ "") (h : bus.Carries w o E ks) :
    Serving bus w o E (enterLoop bus w o ks : Progress Call) := by
  have hnone (ks : Keyspace) : Served (⟨.ok (),ks,[]⟩ : Pass Call) o [] ∧ Accepted [] :=
    ⟨⟨rfl,List.forall_mem_nil _⟩,List.forall_mem_nil _⟩
  simp only [enterLoop,if_neg ho]
  rcases Bus.createGroup_cases h (w.clock 0) o with ⟨hg,he⟩ | ⟨_,he⟩
  · rw [he]
    exact ⟨h,hg,List.forall_mem_nil _,.inl (hnone _)⟩
  · rw [he]
    have hgroup : ((bus.stream ks o).setGroup consumerGroup ⟨0,[]⟩).group consumerGroup ≠ none := by
      simp [StreamValue.setGroup]
    have hentries : ∀ e ∈ ((bus.stream ks o).setGroup consumerGroup ⟨0,[]⟩).entries, E e.fields :=
      h.entries
    have hcreate := h.putStream hentries fun _ => hgroup
    refine ⟨hcreate.carries,?_,List.forall_mem_nil _,.inl (hnone _)⟩
    rw [Bus.stream_putStream,if_pos rfl]
    exact hgroup

theorem runConsumer_serving (henc : Encodable handler w o) (hE : ∀ n, ∀ a ∈ w.arrivals n, E a.1)
    (ho : o ≠ "") (h : bus.Carries w o E ks) (rounds : Nat) :
    Serving bus w o E (runConsumer bus handler w o ks rounds) := by
  induction rounds with
  | zero => exact enterLoop_serving ho h
  | succ rounds ih =>
    have hrecover := unlessReturned_serving ih (recoverPass_serving henc hE ih)
    exact unlessReturned_serving hrecover (readPass_serving henc hE hrecover)

end Loop

/-- A batch is worked off, and `RunConsumer` goes on, just if no entry that was handed over is
rejected. So all is well on a stream that gets no such entry. -/
theorem processMessages_served_iff (bus : Bus) (handler : Handler View Call Reply)
    (w : Surroundings View Reply) (o : String) (ho : o ≠ "") (henc : Encodable handler w o)
    (ks : Keyspace) (h : bus.Ready w ks) :
    (∀ n messages, Served (processMessages bus handler w o n messages ks) o [messages] ↔
      Accepted [messages]) ∧
    (∀ rounds, Served (runConsumer bus handler w o ks rounds).pass o
        (runConsumer bus handler w o ks rounds).handed ↔
      Accepted (runConsumer bus handler w o ks rounds).handed) ∧
    ((∀ e ∈ (bus.stream ks o).entries, ∃ command, decodeCommand e.fields = .ok command) →
      (∀ n, ∀ a ∈ w.arrivals n, ∃ command, decodeCommand a.1 = .ok command) →
      ∀ rounds, Served (runConsumer bus handler w o ks rounds).pass o
        (runConsumer bus handler w o ks rounds).handed) := by
  have hany := h.carries (o := o) (E := fun _ => True) fun _ _ => trivial
  refine ⟨?_,?_,?_⟩
  · intro n messages
    constructor
    · rintro ⟨hok,_⟩
      rcases (processMessages_spec henc messages n hany).2 with ⟨_,hall⟩ | ⟨m,hm,err,hbad,herr⟩
      · rw [Accepted,List.forall_mem_singleton]
        intro m hm
        obtain ⟨command,hd,_⟩ := hall m hm
        exact ⟨command,hd⟩
      · cases hok.symm.trans herr
    · intro haccepted
      rw [Accepted,List.forall_mem_singleton] at haccepted
      rcases (processMessages_spec henc messages n hany).2 with ⟨hok,hall⟩ | ⟨m,hm,err,hbad,_⟩
      · refine ⟨hok,List.forall_mem_singleton.mpr ?_⟩
        intro m hm command hd
        obtain ⟨c,hc,hdone⟩ := hall m hm
        cases hc.symm.trans hd
        exact hdone
      · obtain ⟨c,hc⟩ := haccepted m hm
        cases hc.symm.trans hbad
  · intro rounds
    exact (runConsumer_serving henc (fun _ _ _ => trivial) ho hany rounds).served_iff
  · intro hentries harrivals rounds
    have hcarries := h.carries (E := fun fields => ∃ command, decodeCommand fields = .ok command) hentries
    have hserving := runConsumer_serving henc harrivals ho hcarries rounds
    exact hserving.served_iff.mpr hserving.handed

def instantOf (now : Int) (arrivals : Nat → List (List (String × String) × Nat)) :
    Surroundings RuntimeView (Except String String) :=
  ⟨fun _ => now,fun _ => connectedView,fun _ => .ok "\x7b\x7d",arrivals⟩

theorem instantOf_encodable {now : Int} (h : (timeValue now).isSome = true)
    (arrivals : Nat → List (List (String × String) × Nat)) (o : String) :
    Encodable (resetHandler ⟨id,id⟩) (instantOf now arrivals) o := by
  have hpayload : (payloadValue (some "\x7b\x7d")).isSome = true := by decide +kernel
  apply resetHandler_encodable
  · intro n
    exact Option.isSome_iff_exists.mp h
  · intro n payload hreply
    cases hreply
    exact Option.isSome_iff_exists.mp hpayload

def malformedFields : List (String × String) := [("id","4f1e")]

def resetFieldsOf (id : String) : List (String × String) :=
  commandFields ⟨id,"station-1","runtime-a",3,"Reset","\x7b\"type\":\"OnIdle\"\x7d",1767225600000000000,
    1767225630000000000⟩

def consumeAt (now : Int) (arrivals : Nat → List (List (String × String) × Nat)) (ks : Keyspace)
    (rounds : Nat) : Progress (Version × ResetCommand) :=
  runConsumer singleRuntime.bus (resetHandler ⟨id,id⟩) (instantOf now arrivals) "runtime-a" ks rounds

def twoResets (n : Nat) : List (List (String × String) × Nat) :=
  if n = 1 then [(resetFieldsOf "4f1e",0),(resetFieldsOf "4f1f",0)] else []

theorem processMessages_served_resets :
    let p := consumeAt 1767225600000000000 twoResets Keyspace.empty 2
    p.handed.map (List.map StreamEntry.id) = [[2],[1],[]] ∧ Served p.pass "runtime-a" p.handed := by
  refine ⟨by decide +kernel,?_⟩
  have hok : ∀ a ∈ twoResets 1, (decodeCommand a.1).isOk = true := by decide +kernel
  have harrivals : ∀ n, ∀ a ∈ twoResets n, ∃ command, decodeCommand a.1 = .ok command := by
    intro n a ha
    by_cases hn : n = 1
    · subst hn
      have hdecoded := hok a ha
      cases hd : decodeCommand a.1 with
      | error err =>
        rw [hd] at hdecoded
        cases hdecoded
      | ok command => exact ⟨command,rfl⟩
    · simp [twoResets,hn] at ha
  exact (processMessages_served_iff singleRuntime.bus _ (instantOf 1767225600000000000 twoResets)
    "runtime-a" (by decide) (instantOf_encodable (by decide +kernel) _ _) Keyspace.empty
    (Bus.Unused.holds ⟨fun _ => rfl,fun _ => rfl,fun _ => rfl⟩)).2.2 (List.forall_mem_nil _) harrivals 2

def malformedFirst (n : Nat) : List (List (String × String) × Nat) :=
  if n = 1 then [(malformedFields,0),(resetFieldsOf "4f1f",0)] else []

/-- A malformed entry and a command arrive. The consumer returns an error over the first. Once the
second is pending too, after a crash say, each recovery claims both of them, returns the error again
and acknowledges neither. -/
theorem processMessages_malformed :
    let first := consumeAt 1767225600000000000 malformedFirst Keyspace.empty 1
    let crashed := (singleRuntime.bus.readNew "runtime-a" 1767225601000000000 first.pass.redis).2
    let second := consumeAt 1767225610000000000 (fun _ => []) crashed 1
    let third := consumeAt 1767225620000000000 (fun _ => []) second.pass.redis 1
    Encodable (resetHandler ⟨id,id⟩) (instantOf 1767225600000000000 malformedFirst) "runtime-a" ∧
    singleRuntime.bus.Ready (instantOf 1767225600000000000 malformedFirst) Keyspace.empty ∧
    first.pass.outcome = .error (.codec .ownerGeneration) ∧
    (decodeCommand (resetFieldsOf "4f1f")).isOk = true ∧
    second.handed.map (List.map StreamEntry.fields) = [[malformedFields,resetFieldsOf "4f1f"]] ∧
    second.pass.outcome = .error (.codec .ownerGeneration) ∧ second.pass.events.isEmpty = true ∧
    third.handed.map (List.map StreamEntry.fields) = [[malformedFields,resetFieldsOf "4f1f"]] ∧
    third.pass.outcome = .error (.codec .ownerGeneration) ∧ third.pass.events.isEmpty = true := by
  refine ⟨instantOf_encodable (by decide +kernel) _ _,
    Bus.Unused.holds ⟨fun _ => rfl,fun _ => rfl,fun _ => rfl⟩,?_⟩
  decide +kernel

end CsmsPlatform
