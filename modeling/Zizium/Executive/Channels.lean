import Zizium.Executive.Handles

/-!
# Channels

The channel pairs of `kernel/executive/ipc/ipc.c`: bounded queues of messages between two endpoints
under the lock of their dispatcher domain, and the transfer of handles from the table of a sender to
that of the receiver.  A channel begins with its object header, so that it has the number of its
object.  No thread waits on a channel here, so that setting its signal state wakes nobody and
succeeds.

As in `Zizium.Executive.Handles` a call is a sequence of locked sections.  A section of a call on a
channel is a step of `IpcRun.step`; the calls on handles and objects that it makes are calls of the
`HandleRun` in it.
-/

namespace Zizium

open BlockIO Function

abbrev ipcMessageVersion : ℕ := 1
abbrev ipcInlinePayloadCapacity : ℕ := 192
abbrev ipcQueueCapacity : ℕ := 8
abbrev messageTransferHandle : ℕ := 1
abbrev messageStructSize : ℕ := 248

structure ZiMessage where
  structSize : ℕ
  version : ℕ
  messageId : ℕ
  correlationId : ℕ
  messageType : ℕ
  flags : ℕ
  payloadSize : ℕ
  transferredHandle : ℕ
  transferredAccess : ZiAccessMask
  reserved : ℕ
  inlinePayload : List UInt8
  deriving DecidableEq, Repr

namespace ZiMessage

/-- All bytes are zero. -/
def zero : ZiMessage := ⟨0,0,0,0,0,0,0,0,0,0,List.replicate ipcInlinePayloadCapacity 0⟩

def transfers (message : ZiMessage) : Bool :=
  decide (message.flags &&& messageTransferHandle ≠ 0)

end ZiMessage

def messageIsValid (message : ZiMessage) : Bool :=
  if message.structSize ≠ messageStructSize ∨ message.version ≠ ipcMessageVersion ∨
      message.payloadSize > ipcInlinePayloadCapacity ∨
      message.flags &&& (uint32Max-messageTransferHandle) ≠ 0 ∨ message.reserved ≠ 0 then false
  else if message.transfers = true then
    decide (message.transferredHandle ≠ ziInvalidHandle ∧ message.transferredAccess ≠ 0 ∧
      outsideFullControl message.transferredAccess.toNat = false)
  else decide (message.transferredHandle = ziInvalidHandle ∧ message.transferredAccess = 0)

/-- The fields of a message, and zeros behind its payload. -/
def copyMessage (source : ZiMessage) : ZiMessage where
  structSize := messageStructSize
  version := ipcMessageVersion
  messageId := source.messageId
  correlationId := source.correlationId
  messageType := source.messageType
  flags := source.flags
  payloadSize := source.payloadSize
  transferredHandle := source.transferredHandle
  transferredAccess := source.transferredAccess
  reserved := 0
  inlinePayload := source.inlinePayload.take source.payloadSize ++
    List.replicate (ipcInlinePayloadCapacity-source.payloadSize) 0

inductive ZiChannelState where
  | unused
  | opened
  | closed
  deriving DecidableEq, Repr

/-- There are `ipcQueueCapacity` places for messages. -/
structure ZiChannel (ι : Type) where
  peer : Option ℕ
  ownerTable : Option ι
  ownerToken : Option ZiAccessToken
  messages : ℕ → ZiMessage
  queueLimit : ℕ
  queueHead : ℕ
  queueCount : ℕ
  state : ZiChannelState
  peerIsClosed : Bool
  signalState : ℕ

/-- A channel before its initialisation. -/
def ZiChannel.unused {ι : Type} : ZiChannel ι :=
  ⟨none,none,none,fun _ => .zero,0,0,0,.unused,false,0⟩

def channelInitialise {ι : Type} (queueLimit : ℕ) (ownerTable : ι) (ownerToken : ZiAccessToken)
    (peer : ℕ) : ZiChannel ι :=
  ⟨some peer,some ownerTable,some ownerToken,fun _ => .zero,queueLimit,0,0,.opened,false,0⟩

section

variable {ι : Type}

/-- The channel that a send is to, as the first section of `zi_ipc_send` finds it. -/
def sendTarget (channel : ℕ) (channels : ℕ → ZiChannel ι) : Result ℕ :=
  match (channels channel).peer with
  | none => throw .peerClosed
  | some peer =>
    if (channels channel).state ≠ .opened ∨ (channels channel).peerIsClosed = true ∨
        (channels peer).state ≠ .opened ∨ (channels peer).ownerTable.isNone = true ∨
        (channels peer).ownerToken.isNone = true then throw .peerClosed
    else pure peer

/-- The second section of `zi_ipc_send`. -/
def enqueueMessage (channel peer : ℕ) (queued : ZiMessage) (channels : ℕ → ZiChannel ι) :
    Result (ℕ → ZiChannel ι) :=
  if (channels channel).state ≠ .opened ∨ (channels channel).peerIsClosed = true ∨
      (channels channel).peer ≠ some peer ∨ (channels peer).state ≠ .opened then throw .peerClosed
  else
    let receiver := channels peer
    if receiver.queueCount = receiver.queueLimit then throw .queueFull
    else
      let tail := (receiver.queueHead+receiver.queueCount)%receiver.queueLimit
      pure (update channels peer { receiver with
        messages := update receiver.messages tail queued
        queueCount := receiver.queueCount+1
        signalState := receiver.queueCount+1 })

def ZiChannel.takeHead (channel : ZiChannel ι) : ZiMessage × ZiChannel ι :=
  (channel.messages channel.queueHead, { channel with
      messages := update channel.messages channel.queueHead .zero
      queueHead := (channel.queueHead+1)%channel.queueLimit
      queueCount := channel.queueCount-1 })

/-- The section of `zi_ipc_receive`. -/
def dequeueMessage (channel : ℕ) (channels : ℕ → ZiChannel ι) :
    Result (ZiMessage × (ℕ → ZiChannel ι)) :=
  if (channels channel).queueCount = 0 then
    if (channels channel).peerIsClosed = true ∨ (channels channel).state ≠ .opened then
      throw .peerClosed
    else throw .timeout
  else
    let (message, receiver) := (channels channel).takeHead
    pure (message, update channels channel { receiver with
      signalState := if receiver.queueCount ≠ 0 ∨ receiver.peerIsClosed = true then
        receiver.queueCount+1 else 0 })

/-- The loop of `zi_ipc_channel_close` over the queue, which each round makes shorter: the handles
of the messages that are dropped. -/
def drainQueue : ℕ → ZiChannel ι → List ℕ × ZiChannel ι
  | 0, channel => ([], channel)
  | rounds+1, channel =>
    if channel.queueCount = 0 then ([], channel)
    else
      let (message, channel) := channel.takeHead
      let (handles, channel) := drainQueue rounds channel
      (if message.transfers = true then message.transferredHandle :: handles else handles, channel)

/-- A reference or a handle to be given back. -/
inductive IpcRelease where
  | handle (value : ℕ)
  | object (number : ℕ)
  deriving DecidableEq, Repr

/-- The section of `zi_ipc_channel_close`, and what it leaves to be given back. -/
def closeChannel (channel : ℕ) (channels : ℕ → ZiChannel ι) :
    Option (List IpcRelease × (ℕ → ZiChannel ι)) :=
  if (channels channel).state = .closed then none
  else
    let (handles, drained) := drainQueue (channels channel).queueCount
      { channels channel with state := .closed }
    let channels := update channels channel { drained with peer := none, signalState := 1 }
    match drained.peer with
    | none => some (handles.map .handle, channels)
    | some peer =>
      let peerHoldsChannel := (channels peer).peer = some channel
      some (handles.map .handle ++ .object peer :: if peerHoldsChannel then [.object channel]
        else [],
        update channels peer { channels peer with
          peerIsClosed := true
          peer := if peerHoldsChannel then none else (channels peer).peer
          signalState := 1 })

end

/-! ## Calls -/

/-- A call on a channel between two sections.  A send has its number. -/
inductive IpcTask where
  | duplicate (send channel peer : ℕ) (message : ZiMessage)
  | enqueue (send channel peer : ℕ) (message queued : ZiMessage)
  -- Close the handle that was made for the receiver.
  | rollback (send peer handle : ℕ) (status : ZiStatus)
  -- The last thing a send does.
  | release (send peer : ℕ) (result : Result Unit)
  | closing (channel : ℕ) (releases : List IpcRelease) (result : Result Unit)
  deriving DecidableEq

/-- The calls on handles and objects, and what waits for them. -/
inductive IpcFrame where
  | client
  | duplicated (send channel peer : ℕ) (message : ZiMessage)
  | rolledBack (send peer : ℕ) (status : ZiStatus)
  | released (send : ℕ) (result : Result Unit)
  | closing (channel : ℕ) (releases : List IpcRelease) (result : Result Unit) (ofHandle : Bool)

inductive IpcEvent where
  -- A handle has been made for a receiver.
  | transferred (send receiver handle : ℕ)
  | enqueued (send receiver : ℕ) (message queued : ZiMessage)
  | sendReturned (send : ℕ) (result : Result Unit)
  | received (receiver : ℕ) (message : ZiMessage)
  | closed (channel : ℕ)
  | closeReturned (channel : ℕ) (result : Result Unit)

/-- `close_transferred_handle` lets pass that the handle is gone. -/
def transferredStatus (status : Result ℕ) : Result Unit :=
  match status with
  | .error .invalidHandle => .ok ()
  | .error status => .error status
  | .ok _ => .ok ()

/-- What follows when a call on a handle or an object has returned. -/
def IpcFrame.next (frame : IpcFrame) (result : Result ℕ) : List IpcTask × List IpcEvent :=
  match frame with
  | client => ([], [])
  | duplicated send channel peer message =>
    match result with
    | .error status => ([.release send peer (.error status)], [])
    | .ok handle =>
      ([.enqueue send channel peer message
        { copyMessage message with transferredHandle := handle }], [.transferred send peer handle])
  | rolledBack send peer status => ([.release send peer (.error status)], [])
  | released send outcome => ([], [.sendReturned send
    (outcome >>= fun _ => result.map fun _ => ())])
  | closing channel releases firstFailure ofHandle =>
    let status := if ofHandle = true then transferredStatus result else result.map fun _ => ()
    ([.closing channel releases (firstFailure >>= fun _ => status)], [])

inductive IpcAction (ι : Type) where
  -- Any other call on handles and objects.
  | handle (call : HandleCall ι)
  | pair (client server queueLimit : ℕ) (clientTable serverTable : ι)
      (clientToken serverToken : ZiAccessToken)
  | send (channel : ℕ) (message : ZiMessage)
  | receive (channel : ℕ)
  | close (channel : ℕ)
  -- Go on with a call in progress.
  | resumeHandle (index : ℕ)
  | resume (index : ℕ)

/-- Handles, channels, the calls on channels in progress, and what has been seen. -/
structure IpcRun (ι : Type) where
  handles : HandleRun ι IpcFrame
  channels : ℕ → ZiChannel ι
  tasks : List IpcTask
  trace : List IpcEvent
  sends : ℕ

namespace HandleEvent

def answer {ι κ : Type} : HandleEvent ι κ → Option (κ × Result ℕ)
  | returned call result => some (call, result)
  | _ => none

end HandleEvent

namespace IpcRun

variable {ι : Type} [DecidableEq ι]

def start (st : HandleState ι) : IpcRun ι := ⟨.start st,fun _ => .unused,[],[],0⟩

/-- A step of the calls on handles, and what follows from those that return. -/
def perform (run : IpcRun ι) (action : HandleAction ι IpcFrame) : IpcRun ι :=
  let handles := run.handles.step action
  let answers := (handles.trace.drop run.handles.trace.length).filterMap HandleEvent.answer
  { run with
    handles := handles
    tasks := run.tasks ++ answers.flatMap fun answer => (answer.1.next answer.2).1
    trace := run.trace ++ answers.flatMap fun answer => (answer.1.next answer.2).2 }

/-- A call on handles that cannot be made returns at once. -/
def answerNow (run : IpcRun ι) (frame : IpcFrame) (result : Result ℕ) : IpcRun ι :=
  { run with
    tasks := run.tasks ++ (frame.next result).1
    trace := run.trace ++ (frame.next result).2 }

/-- `zi_ipc_channel_pair_initialise` on new channels. -/
def pair (run : IpcRun ι) (client server queueLimit : ℕ) (clientTable serverTable : ι)
    (clientToken serverToken : ZiAccessToken) : IpcRun ι :=
  if queueLimit = 0 ∨ queueLimit > ipcQueueCapacity ∨ client = server ∨
      ziSecurityTokenValidate clientToken = false ∨ ziSecurityTokenValidate serverToken = false ∨
      (run.channels client).state ≠ .unused ∨ (run.channels server).state ≠ .unused then run
  else
    match ziObjectReference (run.handles.state.objects server),
      ziObjectReference (run.handles.state.objects client) with
    | .ok _, .ok _ =>
      let clientChannel := channelInitialise queueLimit clientTable clientToken server
      let serverChannel := channelInitialise queueLimit serverTable serverToken client
      let channels := update run.channels client clientChannel
      let run := { run with channels := update channels server serverChannel }
      (run.perform (.start (.reference server) .client)).perform
        (.start (.reference client) .client)
    -- The objects of new channels have one reference and can be referenced.
    | _, _ => run

/-- The first section of `zi_ipc_send`. -/
def send (run : IpcRun ι) (channel : ℕ) (message : ZiMessage) : IpcRun ι :=
  let fails := fun status : ZiStatus =>
    { run with
      trace := run.trace ++ [.sendReturned run.sends (.error status)]
      sends := run.sends+1 }
  if messageIsValid message = false ∨ (run.channels channel).ownerTable.isNone = true ∨
      (run.channels channel).ownerToken.isNone = true then fails .invalidArgument
  else
    let target : Result (ℕ × ZiObjectHeader) := do
      let peer ← sendTarget channel run.channels
      let header ← ziObjectReference (run.handles.state.objects peer)
      pure (peer, header)
    match target with
    | .error status => fails status
    | .ok (peer, _) =>
      let referenced := run.perform (.start (.reference peer) .client)
      { referenced with
        tasks := referenced.tasks ++ [
          if message.transfers = true then .duplicate run.sends channel peer message
          else .enqueue run.sends channel peer message (copyMessage message)]
        sends := run.sends+1 }

def receive (run : IpcRun ι) (channel : ℕ) : IpcRun ι :=
  match dequeueMessage channel run.channels with
  | .error _ => run
  | .ok (message, channels) =>
    { run with channels := channels, trace := run.trace ++ [.received channel message] }

/-- The first section of `zi_ipc_channel_close`. -/
def close (run : IpcRun ι) (channel : ℕ) : IpcRun ι :=
  if (run.channels channel).state = .unused then run
  else match closeChannel channel run.channels with
  -- A repeated close returns at once.
  | none => run
  | some (releases, channels) =>
    { run with
      channels := channels
      tasks := run.tasks ++ [.closing channel releases (.ok ())]
      trace := run.trace ++ [.closed channel] }

/-- The next section of a call on a channel. -/
def resumeTask (run : IpcRun ι) (task : IpcTask) : IpcRun ι :=
  match task with
  | .duplicate send channel peer message =>
    match (run.channels channel).ownerTable, (run.channels peer).ownerTable,
      (run.channels peer).ownerToken with
    | some sourceTable, some targetTable, some targetToken =>
      run.perform (.start (.duplicate sourceTable message.transferredHandle targetTable targetToken
        message.transferredAccess 0) (.duplicated send channel peer message))
    | _, _, _ => run.answerNow (.duplicated send channel peer message) (.error .invalidArgument)
  | .enqueue send channel peer message queued =>
    match enqueueMessage channel peer queued run.channels with
    | .ok channels =>
      { run with
        channels := channels
        tasks := run.tasks ++ [.release send peer (.ok ())]
        trace := run.trace ++ [.enqueued send peer message queued] }
    | .error status =>
      { run with tasks := run.tasks ++ [
        if queued.transfers = true then .rollback send peer queued.transferredHandle status
        else .release send peer (.error status)] }
  | .rollback send peer handle status =>
    match (run.channels peer).ownerTable with
    | some table => run.perform (.start (.close table handle) (.rolledBack send peer status))
    | none => run.answerNow (.rolledBack send peer status) (.error .invalidHandle)
  | .release send peer result => run.perform (.start (.dereference peer) (.released send result))
  | .closing channel [] result => { run with trace := run.trace ++ [.closeReturned channel result] }
  | .closing channel (.handle value :: releases) result =>
    match (run.channels channel).ownerTable with
    | some table => run.perform (.start (.close table value)
      (.closing channel releases result true))
    | none => run.answerNow (.closing channel releases result true) (.error .invalidHandle)
  | .closing channel (.object number :: releases) result =>
    run.perform (.start (.dereference number) (.closing channel releases result false))

def step (run : IpcRun ι) (action : IpcAction ι) : IpcRun ι :=
  match action with
  | .handle call => run.perform (.start call .client)
  | .pair client server queueLimit clientTable serverTable clientToken serverToken =>
    run.pair client server queueLimit clientTable serverTable clientToken serverToken
  | .send channel message => run.send channel message
  | .receive channel => run.receive channel
  | .close channel => run.close channel
  | .resumeHandle index => run.perform (.resume index)
  | .resume index =>
    match run.tasks[index]? with
    | none => run
    | some task => { run with tasks := run.tasks.eraseIdx index }.resumeTask task

def after (run : IpcRun ι) (actions : List (IpcAction ι)) : IpcRun ι := actions.foldl step run

end IpcRun

end Zizium
