import Scratchbox.IdExport
import Scratchbox.ServerReplies

/-!
# Requests and replies on a socket

`send_command_receive_reply` sends a command and takes the next datagram of the socket as the reply.
If `recvfrom` fails, the reply to its command still comes, and the next call takes it for its own:
`serial` is neither filled nor compared. So all accepted replies of a socket belong to the commands
exactly when no call gets a reply after one whose `recvfrom` failed (`accepted_replies_match_iff`).
-/

namespace Scratchbox

open List

/-! ## The socket -/

/-- The socket of a client process, and the server. The numbers count the commands that were
sent; they are not in the messages. -/
structure RpcSocket where
  loop : ServerLoop
  sent : Nat := 0
  /-- What the server has not received yet. -/
  commands : List (Nat × RpcCommand) := []
  /-- What the process has not read yet. -/
  replies : List (Nat × RpcReply) := []

/-- What the server does next: it receives the oldest command of the socket, or anything else. -/
inductive ServerRound
  | next (script : Init2Script)
  | other (event : ServerEvent)

inductive RecvResult
  | failed
  | received (script : Init2Script)

/-- A call of `send_command_receive_reply` that sends its command. -/
structure RpcCall where
  command : RpcCommand
  /-- `sendto` has failed with `ENOTSOCK` or `EBADF`, and there is a new socket with the same
  address. -/
  reopens : Bool
  /-- What the server does until `recvfrom` returns. -/
  rounds : List ServerRound
  recv : RecvResult

inductive RpcEvent
  | call (call : RpcCall)
  /-- A call that fails before its command is sent. -/
  | notSent
  | round (round : ServerRound)

namespace RpcSocket

variable (socket : RpcSocket)

def round : ServerRound → RpcSocket
  | .next script =>
    match socket.commands with
    | [] => socket
    | (number, command) :: commands =>
      let loop := socket.loop.receive command script
      { socket with
        loop := loop
        commands := commands
        replies := socket.replies ++ [(number, loop.reply)] }
  | .other event => { socket with loop := socket.loop.step event }

def sendto (command : RpcCommand) : RpcSocket :=
  { socket with
    sent := socket.sent + 1
    commands := socket.commands ++
      [(socket.sent, { command with protocolVersion := ruletreeRpcProtocolVersion })] }

/-- `recvfrom` waits for a datagram. -/
def await (script : Init2Script) : RpcSocket :=
  if socket.replies.isEmpty then socket.round (.next script) else socket

def reopen (reopens : Bool) : RpcSocket := if reopens then { socket with replies := [] } else socket

/-- `send_command_receive_reply`, with the reply if it returns `0`. -/
def sendCommandReceiveReply (call : RpcCall) : RpcSocket × Option (Nat × RpcReply) :=
  let socket := call.rounds.foldl round ((socket.reopen call.reopens).sendto call.command)
  match call.recv with
  | .failed => (socket, none)
  | .received script =>
    let socket := socket.await script
    match socket.replies with
    | [] => (socket, none)
    | reply :: replies => ({ socket with replies := replies }, some reply)

def step : RpcEvent → RpcSocket
  | .call call => (socket.sendCommandReceiveReply call).1
  | .notSent => socket
  | .round round => socket.round round

def run (events : List RpcEvent) : RpcSocket := events.foldl step socket

/-! ## Outstanding replies -/

/-- The numbers of the replies that the process may still read, in their order. -/
def outstanding : List Nat := socket.replies.map Prod.fst ++ socket.commands.map Prod.fst

theorem round_outstanding (round : ServerRound) :
    (socket.round round).outstanding = socket.outstanding := by
  cases round with
  | other event => rfl
  | next script =>
    unfold RpcSocket.round
    dsimp only
    split
    · rfl
    next number command commands queued =>
      simp only [outstanding, queued, map_append, map_cons, map_nil,
        append_assoc, singleton_append]

theorem rounds_outstanding (rounds : List ServerRound) :
    (rounds.foldl round socket).outstanding = socket.outstanding :=
  List.foldlRecOn rounds round (motive := fun after => after.outstanding = socket.outstanding) rfl
    fun after same round _ => (after.round_outstanding round).trans same

theorem await_outstanding (script : Init2Script) :
    (socket.await script).outstanding = socket.outstanding := by
  unfold await
  split
  · exact socket.round_outstanding _
  · rfl

theorem sendto_outstanding (command : RpcCommand) :
    (socket.sendto command).outstanding = socket.outstanding ++ [socket.sent] := by
  simp only [outstanding, sendto, map_append, map_cons, map_nil, append_assoc]

theorem await_replies (script : Init2Script) (some : socket.outstanding ≠ []) :
    (socket.await script).replies ≠ [] := by
  unfold await
  split
  next empty =>
    unfold round
    dsimp only
    split
    next none =>
      rw [outstanding, isEmpty_iff.1 empty, none] at some
      exact absurd rfl some
    next => simp
  next nonempty => simpa using nonempty

theorem round_sent (round : ServerRound) : (socket.round round).sent = socket.sent := by
  unfold RpcSocket.round
  split
  · dsimp only
    split <;> rfl
  · rfl

theorem rounds_sent (rounds : List ServerRound) :
    (rounds.foldl round socket).sent = socket.sent :=
  List.foldlRecOn rounds round (motive := fun after => after.sent = socket.sent) rfl
    fun after same round _ => (after.round_sent round).trans same

theorem await_sent (script : Init2Script) : (socket.await script).sent = socket.sent := by
  unfold await
  split
  · exact socket.round_sent _
  · rfl

theorem reopen_sent (reopens : Bool) : (socket.reopen reopens).sent = socket.sent := by
  unfold reopen
  split <;> rfl

theorem call_sent (call : RpcCall) :
    (socket.sendCommandReceiveReply call).1.sent = socket.sent + 1 := by
  have sendto : ((socket.reopen call.reopens).sendto call.command).sent = socket.sent + 1 :=
    congrArg (· + 1) (socket.reopen_sent call.reopens)
  unfold sendCommandReceiveReply
  dsimp only
  split
  · rw [rounds_sent, sendto]
  · split
    · rw [await_sent, rounds_sent, sendto]
    · show (await _ _).sent = _
      rw [await_sent, rounds_sent, sendto]

/-- What was sent before a call, and can still be read in it. -/
def unread (reopens : Bool) : List Nat := (socket.reopen reopens).outstanding

theorem call_received (call : RpcCall) {script : Init2Script}
    (received : call.recv = .received script) :
    ∃ number reply, (socket.sendCommandReceiveReply call).2 = some (number, reply) ∧
      number :: (socket.sendCommandReceiveReply call).1.outstanding =
        socket.unread call.reopens ++ [socket.sent] := by
  let before := call.rounds.foldl round ((socket.reopen call.reopens).sendto call.command)
  have outstanding : (before.await script).outstanding =
      socket.unread call.reopens ++ [socket.sent] := by
    rw [await_outstanding, rounds_outstanding, sendto_outstanding, reopen_sent, unread]
  have nonempty : (before.await script).replies ≠ [] := by
    refine before.await_replies script ?_
    rw [rounds_outstanding, sendto_outstanding]
    exact append_ne_nil_of_right_ne_nil _ (cons_ne_nil _ _)
  obtain ⟨⟨number, reply⟩, replies, queued⟩ := exists_cons_of_ne_nil nonempty
  have result : socket.sendCommandReceiveReply call =
      ({ before.await script with replies := replies }, some (number, reply)) := by
    unfold sendCommandReceiveReply
    simp only [received]
    show (match (before.await script).replies with | [] => _ | reply :: replies => _) = _
    rw [queued]
  refine ⟨number, reply, congrArg Prod.snd result, ?_⟩
  rw [congrArg Prod.fst result, ← outstanding, RpcSocket.outstanding, RpcSocket.outstanding, queued]
  rfl

theorem call_failed (call : RpcCall) (failed : call.recv = .failed) :
    (socket.sendCommandReceiveReply call).2 = none ∧
      (socket.sendCommandReceiveReply call).1.outstanding =
        socket.unread call.reopens ++ [socket.sent] := by
  unfold sendCommandReceiveReply
  simp only [failed, rounds_outstanding, sendto_outstanding, reopen_sent, unread, and_self]

/-! ## Runs -/

/-- The numbers of outstanding replies are those of older commands. -/
def Numbered : Prop := ∀ number ∈ socket.outstanding, number < socket.sent

variable {socket}

theorem unread_subset (reopens : Bool) : socket.unread reopens ⊆ socket.outstanding := by
  unfold unread reopen
  split
  · exact subset_append_right _ _
  · exact List.Subset.refl _

/-- A call gets the reply to its own command if no other one is to be read before. -/
theorem Numbered.call_matches_iff (numbered : socket.Numbered) (call : RpcCall) :
    (∀ number reply, (socket.sendCommandReceiveReply call).2 = some (number, reply) →
      number = socket.sent) ↔ call.recv = .failed ∨ socket.unread call.reopens = [] := by
  cases result : call.recv with
  | failed =>
    rw [(socket.call_failed call result).1]
    exact iff_of_true (fun _ _ accepted => nomatch accepted) (.inl rfl)
  | received script =>
    obtain ⟨number, reply, accepted, oldest⟩ := socket.call_received call result
    have own : (∀ number' reply', (socket.sendCommandReceiveReply call).2 =
        some (number', reply') → number' = socket.sent) ↔ number = socket.sent := by
      rw [accepted]
      constructor
      · exact fun all => all number reply rfl
      · rintro same _ _ ⟨⟩
        exact same
    rw [own, or_iff_right (by simp)]
    constructor
    · intro same
      by_contra nonempty
      obtain ⟨first, rest, unread⟩ := exists_cons_of_ne_nil nonempty
      rw [unread] at oldest
      have older : first < socket.sent :=
        numbered first (unread_subset call.reopens (unread ▸ mem_cons_self))
      rw [cons_append, List.cons.injEq] at oldest
      omega
    · intro empty
      rw [empty, nil_append, List.cons.injEq] at oldest
      exact oldest.1

theorem Numbered.call (numbered : socket.Numbered) (call : RpcCall) :
    (socket.sendCommandReceiveReply call).1.Numbered := by
  have sent : ∀ number ∈ socket.unread call.reopens ++ [socket.sent], number < socket.sent + 1 := by
    intro number member
    rcases mem_append.1 member with older | own
    · exact Nat.lt_succ_of_lt (numbered number (unread_subset _ older))
    · rw [mem_singleton.1 own]
      exact Nat.lt_succ_self _
  unfold Numbered
  rw [call_sent]
  cases result : call.recv with
  | failed =>
    rw [(socket.call_failed call result).2]
    exact sent
  | received script =>
    obtain ⟨number, reply, -, oldest⟩ := socket.call_received call result
    rw [← oldest] at sent
    exact fun number member => sent number (mem_cons_of_mem _ member)

theorem Numbered.run (numbered : socket.Numbered) (events : List RpcEvent) :
    (socket.run events).Numbered := by
  refine List.foldlRecOn events step (motive := Numbered) numbered ?_
  intro socket numbered event _
  cases event with
  | call call => exact numbered.call call
  | notSent => exact numbered
  | round round =>
    intro number member
    rw [step, round_outstanding] at member
    rw [step, round_sent]
    exact numbered number member

end RpcSocket

def RpcEvent.recvFails : RpcEvent → Bool
  | .call { recv := .failed, .. } => true
  | _ => false

def RpcEvent.reopens : RpcEvent → Bool
  | .call request => request.reopens
  | _ => false

/-- On one socket there is one more outstanding reply with each `recvfrom` that fails. -/
theorem RpcSocket.run_outstanding_length (socket : RpcSocket) (events : List RpcEvent)
    (oneSocket : ∀ event ∈ events, event.reopens = false) :
    (socket.run events).outstanding.length =
      socket.outstanding.length + events.countP RpcEvent.recvFails := by
  induction events generalizing socket with
  | nil => rfl
  | cons event events ih =>
    have same := oneSocket event (.head _)
    show ((socket.step event).run events).outstanding.length = _
    rw [ih _ fun event member => oneSocket event (.tail _ member), countP_cons]
    cases event with
    | notSent =>
      rw [if_neg (by decide : ¬ RpcEvent.notSent.recvFails = true)]
      rfl
    | round round =>
      have length : (socket.step (.round round)).outstanding.length = socket.outstanding.length :=
        congrArg List.length (socket.round_outstanding round)
      rw [length]
      rfl
    | call call =>
      have unread : socket.unread call.reopens = socket.outstanding := by
        rw [RpcSocket.unread, show call.reopens = false from same]
        rfl
      obtain ⟨command, reopens, rounds, recv⟩ := call
      cases recv with
      | failed =>
        have left := (socket.call_failed ⟨command, reopens, rounds, .failed⟩ rfl).2
        rw [unread] at left
        have length := congrArg List.length left
        rw [length_append, length_singleton] at length
        show (socket.sendCommandReceiveReply _).1.outstanding.length + _ = _
        rw [length, if_pos (show RpcEvent.recvFails (.call _) = true from rfl)]
        omega
      | received script =>
        obtain ⟨number, reply, -, oldest⟩ :=
          socket.call_received ⟨command, reopens, rounds, .received script⟩ rfl
        rw [unread] at oldest
        have length := congrArg List.length oldest
        rw [length_cons, length_append, length_singleton] at length
        show (socket.sendCommandReceiveReply _).1.outstanding.length + _ = _
        rw [Nat.succ.inj length]
        rfl

/-- `ruletree_rpc__init2`, with what `send_command_receive_reply` has given to it. -/
def ruletreeRpcInit2 : Option RpcReply → CStr
  | none => "RPC failed".toList
  | some reply =>
    if reply.messageType = ReplyType.ok.number then "OK".toList
    else if reply.messageType = ReplyType.failed.number then "FAILED".toList
    else if reply.messageType = ReplyType.message.number then reply.str
    else "Illegal reply message type (".toList ++ printInt reply.messageType ++ [')']

/-- On one socket, the accepted replies belong to their commands exactly when no call gets a reply
after one whose `recvfrom` failed. -/
theorem accepted_replies_match_iff (loop : ServerLoop) (events : List RpcEvent)
    (oneSocket : ∀ event ∈ events, event.reopens = false) :
    (∀ done call, done ++ [.call call] <+: events →
      let socket := RpcSocket.run { loop := loop } done
      ∀ number reply, (socket.sendCommandReceiveReply call).2 = some (number, reply) →
        number = socket.sent) ↔
      ∀ done call, done ++ [.call call] <+: events → call.recv ≠ .failed →
        ∀ event ∈ done, event.recvFails = false := by
  refine forall_congr' fun done => forall_congr' fun call => forall_congr' fun started => ?_
  have member (event : RpcEvent) (within : event ∈ done ++ [.call call]) : event ∈ events :=
    started.subset within
  have numbered : (RpcSocket.run { loop := loop } done).Numbered :=
    RpcSocket.Numbered.run (fun _ member => absurd member not_mem_nil) done
  have length := RpcSocket.run_outstanding_length { loop := loop } done fun event within =>
    oneSocket event (member event (mem_append_left _ within))
  have unread : (RpcSocket.run { loop := loop } done).unread call.reopens =
      (RpcSocket.run { loop := loop } done).outstanding := by
    rw [show call.reopens = false from oneSocket (.call call)
      (member _ (mem_append_right _ mem_cons_self))]
    rfl
  rw [numbered.call_matches_iff, unread, or_iff_not_imp_left, ← length_eq_zero_iff, length]
  simp [RpcSocket.outstanding, countP_eq_zero]

def interruptedPing : RpcEvent :=
  .call ⟨.plain commandPing, false, [.next emptyScript], .failed⟩

def init2Call : RpcCall := ⟨.plain commandInit2, false, [], .received emptyScript⟩

/-- Nothing is interrupted here. -/
theorem init2_reply_matches :
    let loop := ServerLoop.start .create ⟨0, 0, 0, []⟩
    let ping : RpcCall := ⟨.plain commandPing, false, [], .received emptyScript⟩
    ∀ done call, done ++ [.call call] <+: [.call ping, .call init2Call] →
      let socket := RpcSocket.run { loop := loop } done
      ∀ number reply, (socket.sendCommandReceiveReply call).2 = some (number, reply) →
        number = socket.sent := by
  intro loop ping
  have plain (event : RpcEvent) (member : event ∈ [.call ping, .call init2Call]) :
      event.reopens = false ∧ event.recvFails = false := by
    rw [mem_pair] at member
    rcases member with rfl | rfl <;> exact ⟨rfl, rfl⟩
  refine (accepted_replies_match_iff loop _ fun event member => (plain event member).1).2 ?_
  intro done call started _ event within
  exact (plain event (started.subset (mem_append_left _ within))).2

/-- `ruletree_rpc__init2` gets the reply to the interrupted command, and reports success before
the server has seen its own command. -/
theorem init2_gets_older_reply :
    let loop := ServerLoop.start .create ⟨0, 0, 0, []⟩
    let socket := RpcSocket.run { loop := loop } [interruptedPing]
    let called := socket.sendCommandReceiveReply init2Call
    socket.sent = 1 ∧ called.2.map Prod.fst = some 0 ∧
      ruletreeRpcInit2 (called.2.map Prod.snd) = "OK".toList ∧
      called.1.commands.map Prod.fst = [1] :=
  ⟨rfl, rfl, by decide, rfl⟩

end Scratchbox
