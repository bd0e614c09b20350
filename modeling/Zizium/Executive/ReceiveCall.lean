import Zizium.Executive.Channels
import Zizium.Executive.HandleLifetime
import Zizium.Executive.UserCopy

/-!
# The call that receives a message

`dispatch_receive_channel` of `kernel/executive/process/process.c`, with no other call in between.
The message has left the queue when it is copied to the caller.
-/

namespace Zizium

open BlockIO Bytes Except Function List

/-- `internal_message_to_public`, as the bytes of the message.  The flags are not passed on. -/
def publicMessageBytes (message : ZiMessage) : List ℕ :=
  (leBytes 4 messageStructSize ++ leBytes 4 ipcMessageVersion ++ leBytes 8 message.messageId ++
    leBytes 8 message.correlationId ++ leBytes 4 message.messageType ++ leBytes 4 0 ++
    leBytes 8 message.payloadSize ++ leBytes 8 message.transferredHandle ++
    leBytes 4 message.transferredAccess.toNat ++ leBytes 4 0 ++
    message.inlinePayload.take message.payloadSize ++
    replicate (ipcInlinePayloadCapacity-message.payloadSize) 0).map UInt8.toNat

structure ReceiveState (ι : Type) where
  handles : HandleState ι
  channels : ℕ → ZiChannel ι
  memory : PagingState

section

variable {ι : Type}

/-- `zi_object_dereference` where the reference is not the last one. -/
def dereferenceObject (object : ℕ) (st : HandleState ι) : Result Unit × HandleState ι :=
  match ziObjectDereference (st.objects object) with
  | .error status => (.error status, st)
  | .ok (header, _) => (.ok (), st.setObject object header)

def ziHandleLookup (table : ι) (handle desiredAccess expectedType : ℕ) (st : HandleState ι) :
    Result ℕ × HandleState ι :=
  match referenceHandleEntry table handle st with
  | .error status => (.error status, st)
  | .ok (object, grantedAccess, st) =>
    if amplifies desiredAccess grantedAccess = true then
      (.error .accessDenied, (dereferenceObject object st).2)
    else if (st.objects object).type ≠ expectedType then
      (.error .invalidHandle, (dereferenceObject object st).2)
    else (.ok object, st)

variable (callbacks : ZiX64PagingCallbacks) (backing : ZiAddressSpaceBacking)
  (space : ZiAddressSpace) (table : ι) (channelType handle buffer : ℕ)

/-- The second half of the call, with the channel found. -/
def receiveInto (channel : ℕ) (s : ReceiveState ι) : Result Unit × ReceiveState ι :=
  match dequeueMessage channel s.channels with
  | .error status => (.error status, s)
  | .ok (message, channels) =>
    let (status, memory) :=
      ziCopyToUser callbacks backing space buffer (publicMessageBytes message) s.memory
    (status, { s with channels := channels, memory := memory })

def dispatchReceiveChannel (s : ReceiveState ι) : Result Unit × ReceiveState ι :=
  if buffer = 0 then (.error .invalidArgument, s)
  else match ziHandleLookup table handle 1 channelType s.handles with
  | (.error status, handles) => (.error status, { s with handles := handles })
  | (.ok channel, handles) =>
    let (status, s) := receiveInto callbacks backing space buffer channel
      { s with handles := handles }
    let (released, handles) := dereferenceObject channel s.handles
    (status >>= fun _ => released, { s with handles := handles })

/-- The messages in the queue, oldest first. -/
def ZiChannel.queue (channel : ZiChannel ι) : List ZiMessage :=
  (range channel.queueCount).map fun i =>
    channel.messages ((channel.queueHead+i)%channel.queueLimit)

/-- The handle names an entry in use that grants reading from a channel that is alive. -/
def GrantsRead (channel : ℕ) (st : HandleState ι) : Prop :=
  (st.tables table).isClosing = false ∧
  (∃ entry, (st.tables table).entries[handle%2^32-1]? = some entry ∧ handle%2^32 ≠ 0 ∧
    entry.generation = handle/2^32 ∧ handle/2^32 ≠ 0 ∧ entry.inUse = true ∧
    entry.object = some channel ∧ amplifies 1 entry.grantedAccess = false) ∧
  (st.objects channel).isDestroyed = false ∧ (st.objects channel).referenceCount ≠ uint32Max ∧
    (st.objects channel).type = channelType

/-- A failure takes nothing; a success takes the oldest message and writes its public form to the
buffer, and to no other address of the caller. -/
def ReceivesWhole (s : ReceiveState ι) (outcome : Result Unit × ReceiveState ι) : Prop :=
  (∀ status, outcome.1 = .error status →
    (∀ channel, (outcome.2.channels channel).queue = (s.channels channel).queue) ∧
      outcome.2.handles.tables = s.handles.tables) ∧
  (outcome.1 = .ok () → ∃ channel message,
    GrantsRead table channelType handle channel s.handles ∧
    (s.channels channel).queue = message :: (outcome.2.channels channel).queue ∧
    (∀ other ≠ channel, outcome.2.channels other = s.channels other) ∧
    ∀ v < userAddressMaxExclusive, userByte callbacks space outcome.2.memory v =
      if buffer ≤ v ∧ v < buffer+messageStructSize then (publicMessageBytes message)[v-buffer]?
      else userByte callbacks space s.memory v)

/-- The indices of the queue are in range, and its messages are of the size that a send accepts. -/
structure ZiChannel.Bounded (channel : ZiChannel ι) : Prop where
  indices : channel.queueCount ≠ 0 →
    channel.queueHead < channel.queueLimit ∧ channel.queueCount ≤ channel.queueLimit
  payload : ∀ message ∈ channel.queue, message.payloadSize ≤ ipcInlinePayloadCapacity ∧
    message.inlinePayload.length = ipcInlinePayloadCapacity

end

section

variable {ι : Type} {st st' : HandleState ι} {channels channels' : ℕ → ZiChannel ι}
  {message : ZiMessage} {table : ι} {handle access type object channel : ℕ}

theorem dereferenceObject_tables (object : ℕ) (st : HandleState ι) :
    (dereferenceObject object st).2.tables = st.tables := by
  rw [dereferenceObject]
  split <;> rfl

theorem ziHandleLookup_tables (table : ι) (handle access type : ℕ) (st : HandleState ι) :
    (ziHandleLookup table handle access type st).2.tables = st.tables := by
  rw [ziHandleLookup]
  split
  · rfl
  · rename_i hreference
    obtain ⟨-,-,-,-,-,-,-,rfl⟩ := referenceHandleEntry_ok hreference
    split_ifs
    · exact dereferenceObject_tables _ _
    · exact dereferenceObject_tables _ _
    · rfl

theorem GrantsRead.lookup (h : GrantsRead table type handle object st) :
    ziHandleLookup table handle 1 type st = (.ok object, st.setObject object
      { st.objects object with referenceCount := (st.objects object).referenceCount+1 }) := by
  obtain ⟨hopen,⟨entry,hentry,hslot,hgeneration,hne,huse,hobject,hgranted⟩,halive,hcount,htype⟩ := h
  obtain ⟨hlt,-⟩ := List.getElem?_eq_some_iff.mp hentry
  have hdecode : decodeHandle (st.tables table) handle = .ok (handle%2^32-1, handle/2^32) := by
    rw [decodeHandle,failIf_bind_neg,and_uint32Max,shiftRight_32,failIf_bind_neg (by omega)]
    · rfl
    · rw [ziInvalidHandle]
      omega
  have hnamed : (st.tables table).namedAt (handle%2^32-1) (handle/2^32) =
      .ok (object, entry.grantedAccess) := by
    rw [ZiHandleTable.namedAt,hentry]
    dsimp only
    rw [if_neg (by simp [huse,hgeneration]),hobject]
    rfl
  have hreference : ziObjectReference (st.objects object) = .ok { st.objects object with
      referenceCount := (st.objects object).referenceCount+1 } := by
    rw [ziObjectReference,failIf_bind_neg (by simp [halive,hcount])]
    rfl
  rw [ziHandleLookup,referenceHandleEntry,hdecode,ok_bind]
  dsimp only
  rw [failIf_bind_neg (by simp [hopen]),hnamed,ok_bind]
  dsimp only
  rw [hreference,ok_bind]
  simp [pure,Except.pure,hgranted,htype,HandleState.setObject]

theorem grantsRead_of_lookup (h : (ziHandleLookup table handle 1 type st).1 = .ok object) :
    GrantsRead table type handle object st := by
  rw [ziHandleLookup] at h
  split at h
  · cases h
  · rename_i found granted st1 hreference
    obtain ⟨i,gen,header,hdecode,hopen,hnamed,hheader,rfl⟩ := referenceHandleEntry_ok hreference
    obtain ⟨entry,hentry,huse,hgeneration,hobject,hgranted⟩ := ZiHandleTable.namedAt_ok hnamed
    simp only [decodeHandle,failIf_bind_ok_iff,pure_ok_iff,and_uint32Max,shiftRight_32,
      Prod.mk.injEq,not_or] at hdecode
    obtain ⟨-,⟨hslot,hne,-⟩,rfl,rfl⟩ := hdecode
    obtain ⟨hguard,hheader⟩ := failIf_bind_ok_iff.mp hheader
    obtain rfl := pure_ok_iff.mp hheader
    rw [not_or,Bool.not_eq_true] at hguard
    subst hgranted
    split_ifs at h with hamplifies htype
    cases h
    exact ⟨hopen,⟨entry,hentry,hslot,hgeneration,hne,huse,hobject,
      Bool.eq_false_iff.mpr hamplifies⟩,hguard.1,hguard.2,
      by simpa [HandleState.setObject] using htype⟩

theorem dereferenceObject_of_lookup (hcount : 0 < (st.objects object).referenceCount)
    (halive : (st.objects object).isDestroyed = false) :
    (dereferenceObject object (st.setObject object { st.objects object with
      referenceCount := (st.objects object).referenceCount+1 })).1 = .ok () := by
  have hobject : (st.setObject object { st.objects object with
      referenceCount := (st.objects object).referenceCount+1 }).objects object = _ :=
    update_self ..
  rw [dereferenceObject,hobject,ziObjectDereference_eq,
    if_pos ⟨halive,Nat.succ_ne_zero _,by dsimp only; omega⟩,if_neg (by dsimp only; omega)]

theorem dequeueMessage_error {status : ZiStatus}
    (h : dequeueMessage channel channels = .error status) : (channels channel).queue = [] := by
  rw [dequeueMessage] at h
  by_cases hcount : (channels channel).queueCount = 0
  · rw [ZiChannel.queue,hcount]
    rfl
  · rw [if_neg hcount] at h
    cases h

theorem dequeueMessage_ok (hbounded : (channels channel).Bounded)
    (h : dequeueMessage channel channels = .ok (message, channels')) :
    (channels channel).queue = message :: (channels' channel).queue ∧
      ∀ other ≠ channel, channels' other = channels other := by
  rw [dequeueMessage] at h
  split_ifs at h with hcount
  cases h
  obtain ⟨hhead,hlimit⟩ := hbounded.indices hcount
  refine ⟨?_,fun other hother => update_of_ne hother _ _⟩
  obtain ⟨count,hcount⟩ := Nat.exists_eq_succ_of_ne_zero hcount
  rw [update_self,ZiChannel.queue,ZiChannel.queue]
  dsimp only
  rw [hcount,range_succ_eq_map,map_cons,map_map,Nat.add_zero,
    Nat.mod_eq_of_lt hhead,Nat.succ_sub_one]
  refine congrArg _ (map_congr_left fun i hi => ?_)
  have hi : i < count := mem_range.mp hi
  -- The place that was cleared comes round again only after `queueLimit` places.
  have hother : ((channels channel).queueHead+(i+1))%(channels channel).queueLimit ≠
      (channels channel).queueHead := by
    by_cases hwrap : (channels channel).queueHead+(i+1) < (channels channel).queueLimit
    · rw [Nat.mod_eq_of_lt hwrap]
      omega
    · rw [Nat.mod_eq_sub_mod (by omega),Nat.mod_eq_of_lt (by omega)]
      omega
  rw [comp_apply,Nat.mod_add_mod,Nat.add_assoc,Nat.add_comm 1 i,update_of_ne hother]

end

section

variable {ι : Type} {callbacks : ZiX64PagingCallbacks} {backing : ZiAddressSpaceBacking}
  {space : ZiAddressSpace} {table : ι} {channelType handle buffer : ℕ} {s : ReceiveState ι}

theorem ZiChannel.Bounded.length_publicMessageBytes {channel : ZiChannel ι} {message : ZiMessage}
    (h : channel.Bounded) (hmem : message ∈ channel.queue) :
    (publicMessageBytes message).length = messageStructSize := by
  obtain ⟨hsize,hlength⟩ := h.payload message hmem
  simp only [publicMessageBytes,length_map,length_append,length_leBytes,length_take,
    length_replicate,hlength,min_eq_left hsize,messageStructSize,
    ipcInlinePayloadCapacity] at hsize ⊢
  omega

theorem publicMessageBytes_lt (message : ZiMessage) :
    ∀ byte ∈ publicMessageBytes message, byte < 256 := by
  intro byte hbyte
  obtain ⟨value,-,rfl⟩ := mem_map.mp hbyte
  exact value.toNat_lt

variable {kernel : ZiX64PagingContext} {others : Set ℕ} {outside : List ℕ}

theorem AddressSpaceRun.Sound.copy_message {message : ZiMessage} {memory : PagingState}
    (h : (AddressSpaceRun.mk space memory).Sound backing kernel others outside)
    (hlength : (publicMessageBytes message).length = messageStructSize) :
    let done := ziCopyToUser callbacks backing space buffer (publicMessageBytes message) memory
    (done.1 = .ok () ↔ UserWritable callbacks backing space buffer messageStructSize memory) ∧
    (done.1 = .ok () → ∀ v < userAddressMaxExclusive, userByte callbacks space done.2 v =
      if buffer ≤ v ∧ v < buffer+messageStructSize then (publicMessageBytes message)[v-buffer]?
      else userByte callbacks space memory v) := by
  rcases h with ⟨m,howns⟩ | hgone
  · rw [← hlength]
    exact howns.ziCopyToUser_spec callbacks (publicMessageBytes_lt message)
  · obtain rfl : space = .zero := hgone.space
    rw [ziCopyToUser,if_pos (.inl addressSpaceIsActive_zero)]
    refine refused_iff fun hwritable => ?_
    have hactive := hwritable.active
    rw [addressSpaceIsActive_zero] at hactive
    cases hactive

/-- The call keeps its promise exactly when no message is waiting in a channel that the caller may
read from, or the whole buffer can be written to. -/
theorem receive_whole_iff (hchannels : ∀ channel, (s.channels channel).Bounded)
    (hcounted : ∀ channel, GrantsRead table channelType handle channel s.handles →
      0 < (s.handles.objects channel).referenceCount)
    (hspace : (AddressSpaceRun.mk space s.memory).Sound backing kernel others outside) :
    ReceivesWhole callbacks space table channelType handle buffer s
        (dispatchReceiveChannel callbacks backing space table channelType handle buffer s) ↔
      ∀ channel, buffer ≠ 0 → GrantsRead table channelType handle channel s.handles →
        (s.channels channel).queue ≠ [] →
        UserWritable callbacks backing space buffer messageStructSize s.memory := by
  have htables := ziHandleLookup_tables table handle 1 channelType s.handles
  rw [dispatchReceiveChannel]
  by_cases hbuffer : buffer = 0
  · rw [if_pos hbuffer]
    exact ⟨fun _ _ h => absurd hbuffer h,fun _ => ⟨fun _ _ => ⟨fun _ => rfl,rfl⟩,nofun⟩⟩
  rw [if_neg hbuffer]
  by_cases hgrants : ∃ channel, GrantsRead table channelType handle channel s.handles
  swap
  · -- The lookup fails.
    rcases hlookup : ziHandleLookup table handle 1 channelType s.handles with ⟨found,handles⟩
    cases found with
    | error status =>
      rw [hlookup] at htables
      exact ⟨fun _ channel _ h => absurd ⟨channel,h⟩ hgrants,
        fun _ => ⟨fun _ _ => ⟨fun _ => rfl,htables⟩,nofun⟩⟩
    | ok channel => exact absurd ⟨channel,grantsRead_of_lookup (by rw [hlookup])⟩ hgrants
  obtain ⟨channel,hgrants⟩ := hgrants
  have honly (other) (hother : GrantsRead table channelType handle other s.handles) :
      other = channel := by
    have hsame := hother.lookup.symm.trans hgrants.lookup
    cases hsame
    rfl
  have hreleased := dereferenceObject_of_lookup (hcounted channel hgrants) hgrants.2.2.1
  have htables := (dereferenceObject_tables channel (s.handles.setObject channel
    { s.handles.objects channel with
      referenceCount := (s.handles.objects channel).referenceCount+1 })).trans rfl
  rw [hgrants.lookup]
  cases hdequeue : dequeueMessage channel s.channels with
  | error status =>
    simp only [receiveInto,hdequeue]
    refine ⟨fun _ other _ hother hne => ?_,fun _ => ⟨fun _ _ => ⟨fun _ => rfl,htables⟩,nofun⟩⟩
    obtain rfl := honly other hother
    exact absurd (dequeueMessage_error hdequeue) hne
  | ok taken =>
    obtain ⟨message,channels⟩ := taken
    obtain ⟨hqueue,hothers⟩ := dequeueMessage_ok (hchannels channel) hdequeue
    have hlength := (hchannels channel).length_publicMessageBytes (hqueue ▸ mem_cons_self)
    obtain ⟨hiff,hbytes⟩ := hspace.copy_message hlength
    rcases hcopy : ziCopyToUser callbacks backing space buffer (publicMessageBytes message)
      s.memory with ⟨status,memory⟩
    rw [hcopy] at hiff hbytes
    simp only [receiveInto,hdequeue,hcopy]
    cases status with
    | error status =>
      constructor
      · rintro ⟨hfailed,-⟩
        have hsame := (hfailed status rfl).1 channel
        rw [hqueue] at hsame
        exact absurd hsame.symm (cons_ne_self _ _)
      · intro hall
        have hok := hiff.mpr (hall channel hbuffer hgrants (by rw [hqueue]; exact cons_ne_nil _ _))
        cases hok
    | ok done =>
      refine ⟨fun _ _ _ _ _ => hiff.mp rfl,fun _ => ⟨?_,fun _ =>
        ⟨channel,message,hgrants,hqueue,hothers,hbytes rfl⟩⟩⟩
      rw [hreleased]
      rintro status ⟨⟩

end

/-- A caller with a channel in which one message waits, and nothing mapped at its buffer. -/
def sampleReceive : ReceiveState Unit where
  handles := ⟨fun _ => ziObjectInitialise 5 ⟨true,true⟩ none,
    fun _ => ⟨[⟨some 0,1,1,handleEntryInUse⟩],1,false⟩⟩
  channels _ := { (.unused : ZiChannel Unit) with
    queueLimit := 8, queueCount := 1, state := .opened }
  memory := sampleMemory

theorem failed_receive_loses_message :
    let outcome := dispatchReceiveChannel countingCallbacks megabyteBacking sampleSpace () 5
      4294967297 0x400000 sampleReceive
    outcome.1 = .error .invalidUserBuffer ∧ (sampleReceive.channels 0).queue = [.zero] ∧
      (outcome.2.channels 0).queue = [] := by
  decide +kernel

/-- The address space with two writable pages. -/
def writableRun : AddressSpaceRun :=
  (AddressSpaceRun.mk sampleSpace sampleMemory).after countingCallbacks megabyteBacking
    [.mapOwned 0x400000 0x2000 (x64PageRead ||| x64PageWrite ||| x64PageUser) 7]

theorem writableRun_writable : UserWritable countingCallbacks megabyteBacking writableRun.space
    0x400f80 messageStructSize writableRun.st := by
  have hpages : ∀ i < messageStructSize, (match ziX64PagingQuery countingCallbacks
      writableRun.space.paging (0x400f80+i) writableRun.st with
      | .ok mapping => decide (mapping.protection &&& x64PageUser ≠ 0 ∧
        mapping.protection &&& x64PageWrite ≠ 0)
      | .error _ => false) = true := by decide +kernel
  refine ⟨by decide +kernel,by decide,fun i hi => ?_⟩
  have hpage := hpages i hi
  split at hpage
  · exact ⟨_,by assumption,of_decide_eq_true hpage⟩
  · cases hpage

/-- A buffer that goes over the end of a page is filled. -/
theorem receive_whole_sample :
    let s := { sampleReceive with memory := writableRun.st }
    ReceivesWhole countingCallbacks writableRun.space () 5 4294967297 0x400f80 s
      (dispatchReceiveChannel countingCallbacks megabyteBacking writableRun.space () 5 4294967297
        0x400f80 s) := by
  have hsound : writableRun.Sound megabyteBacking ⟨0x80000,true⟩ _ _ := sampleSpace_sound _
  have hwritable := writableRun_writable
  generalize writableRun = run at hsound hwritable ⊢
  have hbounded (channel : ℕ) : (sampleReceive.channels channel).Bounded :=
    ⟨fun _ => ⟨show 0 < 8 by decide,show 1 ≤ 8 by decide⟩,
      show ∀ message ∈ [ZiMessage.zero], _ by decide +kernel⟩
  exact (receive_whole_iff (s := { sampleReceive with memory := run.st }) hbounded
    (fun _ _ => Nat.one_pos) hsound).mpr fun _ _ _ _ => hwritable

end Zizium
