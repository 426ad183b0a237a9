import Scratchbox.InodeMap

/-!
# The loop of the rule tree server

`ruletree_server` receives a command, handles it and sends a reply. The buffer for replies is a
variable of the whole function, and not every path through the loop sets the type in it: a command
of another protocol version leaves it as it is, and so does `CLEARFILEINFO` for an inode without a
record. `reply_type_determined_iff`: in these cases, and only in these, the type depends on the
reply that was sent before.
-/

namespace Scratchbox

/-! ## Messages -/

/-- `ruletree_rpc_msg_command_t`, as `recvfrom` leaves it in its buffer: behind a datagram that
is too short there is the end of an older one. -/
structure RpcCommand where
  protocolVersion : BitVec 16
  serial : BitVec 16
  messageType : BitVec 32
  fileinfo : InodeSimu
  deriving DecidableEq

/-- `ruletree_rpc_msg_reply_t`. -/
structure RpcReply where
  protocolVersion : BitVec 16
  serial : BitVec 16
  messageType : BitVec 32
  str : CStr
  deriving DecidableEq

def ruletreeRpcProtocolVersion : BitVec 16 := 2

/-- `RULETREE_RPC_MESSAGE_COMMAND__PING`. -/
def commandPing : BitVec 32 := 1
/-- `RULETREE_RPC_MESSAGE_COMMAND__SETFILEINFO`. -/
def commandSetfileinfo : BitVec 32 := 2
/-- `RULETREE_RPC_MESSAGE_COMMAND__RELEASEFILEINFO`. -/
def commandReleasefileinfo : BitVec 32 := 3
/-- `RULETREE_RPC_MESSAGE_COMMAND__CLEARFILEINFO`. -/
def commandClearfileinfo : BitVec 32 := 4
/-- `RULETREE_RPC_MESSAGE_COMMAND__INIT2`. -/
def commandInit2 : BitVec 32 := 5

def ReplyType.number : ReplyType → BitVec 32
  | ok => 1
  | failed => 2
  | unknowncmd => 3
  | protovrserr => 4
  | message => 5

def RpcCommand.fileinfoCommand (command : RpcCommand) : Option FileinfoCommand :=
  if command.messageType = commandSetfileinfo then some (.setfileinfo command.fileinfo)
  else if command.messageType = commandReleasefileinfo then
    some (.releasefileinfo command.fileinfo)
  else if command.messageType = commandClearfileinfo then some (.clearfileinfo command.fileinfo)
  else none

/-! ## The loop -/

/-- `execute_init2_script`, as it runs one time: it adds the settings for CPU transparency to the
rule tree, and leaves the inodes alone. -/
structure Init2Script where
  change : Ruletree → Ruletree
  init2Result : Option CStr
  inodestats : ∀ tree, (change tree).inodestats = tree.inodestats
  bintreeAt : ∀ tree, (change tree).file.bintreeAt = tree.file.bintreeAt
  inodestatAt : ∀ tree, (change tree).file.inodestatAt = tree.file.inodestatAt

structure ServerLoop where
  server : RuletreeServer
  reply : RpcReply

/-- What `receive_command_from_server_socket` returns while the loop runs. -/
inductive ServerEvent
  | commandReceived (command : RpcCommand) (script : Init2Script)
  | receiveFailedTryAgain

namespace ServerLoop

variable (loop : ServerLoop)

def setType (type : ReplyType) : ServerLoop :=
  { loop with reply := { loop.reply with messageType := type.number } }

/-- A command about an inode is handled: it may leave the type as it is. -/
def cmdFileinfo (command : FileinfoCommand) : ServerLoop :=
  let handled := loop.server.handle command
  match handled.2 with
  | some type => { loop with server := handled.1 }.setType type
  | none => { loop with server := handled.1 }

/-- `ruletree_cmd_init2`. -/
def cmdInit2 (script : Init2Script) : ServerLoop where
  server := { loop.server with tree := script.change loop.server.tree }
  reply := { loop.reply with
    str := script.init2Result.getD "No result".toList
    messageType := ReplyType.message.number }

def handle (command : RpcCommand) (script : Init2Script) : ServerLoop :=
  if command.protocolVersion ≠ ruletreeRpcProtocolVersion then loop
  else if command.messageType = commandPing then loop.setType .ok
  else if command.messageType = commandInit2 then loop.cmdInit2 script
  else
    match command.fileinfoCommand with
    | some fileinfo => loop.cmdFileinfo fileinfo
    | none => loop.setType .unknowncmd

/-- One round of the loop for a command. What is sent is the variable `reply`, up to its
`reply_size`. -/
def receive (command : RpcCommand) (script : Init2Script) : ServerLoop :=
  let loop := loop.handle command script
  { loop with reply := { loop.reply with
      protocolVersion := command.protocolVersion
      serial := command.serial } }

def step : ServerEvent → ServerLoop
  | .commandReceived command script => loop.receive command script
  | .receiveFailedTryAgain => loop

def run (events : List ServerEvent) : ServerLoop := events.foldl step loop

/-- The beginning of the loop: the variable `reply` is not initialized. -/
def start (file : RuletreeFile) (uninitialized : RpcReply) : ServerLoop :=
  ⟨.empty file, uninitialized⟩

end ServerLoop

/-! ## What the reply depends on -/

namespace RuletreeServer

theorem handle_type (server : RuletreeServer) (command : FileinfoCommand) :
    (server.handle command).2 =
      match command with
      | .clearfileinfo _ => if (server.lookUp command.inode).isSome then some .ok else none
      | _ => some .ok := by
  cases command with
  | setfileinfo fileinfo =>
    simp only [handle, cmdSetfileinfo]
    split
    · rfl
    · split <;> rfl
  | releasefileinfo fileinfo =>
    simp only [handle, cmdReleasefileinfo]
    split
    · rfl
    · split <;> rfl
  | clearfileinfo fileinfo =>
    have found : server.lookUp (FileinfoCommand.clearfileinfo fileinfo).inode =
        (server.find fileinfo).istat := rfl
    simp only [handle, cmdClearfileinfo, found]
    split
    next missing => rw [missing]; rfl
    next istat present =>
      rw [present]
      split <;> rfl

theorem Sound.init2 {server : RuletreeServer} {t : SearchTree.Tree (ℕ ×ₗ ℕ) Nat}
    (sound : server.Sound t) (script : Init2Script) :
    RuletreeServer.Sound { server with tree := script.change server.tree } t where
  holds := by
    have cells : (script.change server.tree).file.cells = server.tree.file.cells := by
      funext offs
      rw [RuletreeFile.cells, script.bintreeAt, RuletreeFile.cells]
    refine ⟨?_, sound.holds.ordered, sound.holds.values, ?_, sound.holds.inodes⟩
    · rw [cells, script.inodestats]
      exact sound.holds.represents
    · rw [script.inodestatAt]
      exact sound.holds.records
  root := by
    show _ ∨ _ = (script.change server.tree).inodestats
    rw [script.inodestats]
    exact sound.root

end RuletreeServer

def RpcCommand.hasRecord (command : RpcCommand) (tree : Ruletree) : Bool :=
  (tree.lookUp tree.inodestats (command.fileinfo.dev, command.fileinfo.ino)).isSome

def RpcCommand.setsType (command : RpcCommand) (tree : Ruletree) : Option ReplyType :=
  if command.protocolVersion ≠ ruletreeRpcProtocolVersion then none
  else if command.messageType = commandPing then some .ok
  else if command.messageType = commandInit2 then some .message
  else if command.messageType = commandSetfileinfo then some .ok
  else if command.messageType = commandReleasefileinfo then some .ok
  else if command.messageType = commandClearfileinfo then
    if command.hasRecord tree then some .ok else none
  else some .unknowncmd

namespace ServerLoop

variable {loop : ServerLoop}

theorem cmdFileinfo_server (loop : ServerLoop) (command : FileinfoCommand) :
    (loop.cmdFileinfo command).server = (loop.server.handle command).1 := by
  unfold cmdFileinfo
  dsimp only
  split <;> rfl

theorem cmdFileinfo_type (loop : ServerLoop) (command : FileinfoCommand) :
    (loop.cmdFileinfo command).reply.messageType =
      ((loop.server.handle command).2.map ReplyType.number).getD loop.reply.messageType := by
  unfold cmdFileinfo
  dsimp only
  cases (loop.server.handle command).2 <;> rfl

/-- The tree of inodes is sound, whatever the server remembers of it. -/
def Sound (loop : ServerLoop) : Prop := ∃ t, loop.server.Sound t

theorem Sound.receive (sound : loop.Sound) (command : RpcCommand) (script : Init2Script) :
    (loop.receive command script).Sound := by
  obtain ⟨t, ht⟩ := sound
  show ∃ t, (loop.handle command script).server.Sound t
  unfold handle
  split
  · exact ⟨t, ht⟩
  split
  · exact ⟨t, ht⟩
  split
  · exact ⟨t, ht.init2 script⟩
  split
  next fileinfo _ =>
    rw [cmdFileinfo_server]
    exact (ht.handle fileinfo).sound
  · exact ⟨t, ht⟩

theorem run_sound (file : RuletreeFile) (uninitialized : RpcReply) (events : List ServerEvent) :
    ((start file uninitialized).run events).Sound := by
  refine List.foldlRecOn events step ⟨.leaf, RuletreeServer.empty_sound file⟩ ?_
  intro loop sound event _
  cases event with
  | commandReceived command script => exact sound.receive command script
  | receiveFailedTryAgain => exact sound

/-- The type that is sent: the one that the command sets, or that of the last reply. -/
theorem Sound.receive_type (sound : loop.Sound) (command : RpcCommand) (script : Init2Script) :
    (loop.receive command script).reply.messageType =
      ((command.setsType loop.server.tree).map ReplyType.number).getD loop.reply.messageType := by
  obtain ⟨t, ht⟩ := sound
  have found (inode : Inode) : loop.server.lookUp inode =
      loop.server.tree.lookUp loop.server.tree.inodestats inode :=
    (congrFun (ht.holds.lookUp_root ht.root) inode).symm
  show (loop.handle command script).reply.messageType = _
  unfold handle RpcCommand.setsType
  split
  · rfl
  split
  · rfl
  split
  · rfl
  unfold RpcCommand.fileinfoCommand
  by_cases set : command.messageType = commandSetfileinfo
  · rw [if_pos set, if_pos set]
    exact (loop.cmdFileinfo_type _).trans (by rw [loop.server.handle_type])
  rw [if_neg set, if_neg set]
  by_cases release : command.messageType = commandReleasefileinfo
  · rw [if_pos release, if_pos release]
    exact (loop.cmdFileinfo_type _).trans (by rw [loop.server.handle_type])
  rw [if_neg release, if_neg release]
  by_cases clear : command.messageType = commandClearfileinfo
  · rw [if_pos clear, if_pos clear]
    refine (loop.cmdFileinfo_type _).trans ?_
    rw [loop.server.handle_type]
    dsimp only
    rw [found]
    rfl
  · rw [if_neg clear, if_neg clear]
    rfl

end ServerLoop

theorem RpcCommand.setsType_isSome_iff (command : RpcCommand) (tree : Ruletree) :
    (command.setsType tree).isSome ↔ command.protocolVersion = ruletreeRpcProtocolVersion ∧
      (command.messageType = commandClearfileinfo → command.hasRecord tree) := by
  unfold setsType
  by_cases version : command.protocolVersion = ruletreeRpcProtocolVersion
  · rw [if_neg (not_not.2 version), and_iff_right version]
    by_cases clear : command.messageType = commandClearfileinfo
    · rw [clear, if_neg (by decide), if_neg (by decide), if_neg (by decide), if_neg (by decide),
        if_pos rfl]
      cases command.hasRecord tree <;> simp
    · rw [if_neg clear]
      refine iff_of_true ?_ fun isClear => absurd isClear clear
      split_ifs <;> rfl
  · rw [if_pos version]
    exact iff_of_false (by simp) fun both => version both.1

/-- A command that needs no more than its type, as the functions of `rule_tree_rpc_client.c` make
it. -/
def RpcCommand.plain (type : BitVec 32) : RpcCommand :=
  ⟨ruletreeRpcProtocolVersion, 0, type, ⟨0, 0, 0, 0, 0, 0, 0, 0, 0⟩⟩

/-- The same reply is sent whenever the rule tree is the same, exactly for the commands that set
its type. -/
theorem reply_type_determined_iff (file : RuletreeFile) (uninitialized : RpcReply)
    (events : List ServerEvent) (command : RpcCommand) (script : Init2Script) :
    let loop := (ServerLoop.start file uninitialized).run events
    (∀ file' uninitialized' events' script',
      let other := (ServerLoop.start file' uninitialized').run events'
      other.server.tree = loop.server.tree →
        (other.receive command script').reply.messageType =
          (loop.receive command script).reply.messageType) ↔
      command.protocolVersion = ruletreeRpcProtocolVersion ∧
        (command.messageType = commandClearfileinfo → command.hasRecord loop.server.tree) := by
  intro loop
  have sound : loop.Sound := ServerLoop.run_sound file uninitialized events
  rw [← command.setsType_isSome_iff]
  constructor
  · intro determined
    by_contra unset
    rw [Option.not_isSome_iff_eq_none] at unset
    -- Both of these commands leave the rule tree alone, and have different replies.
    have sent (type : BitVec 32)
        (tree : (loop.receive (.plain type) script).server.tree = loop.server.tree) :
        (loop.receive (.plain type) script).reply.messageType =
          (loop.receive command script).reply.messageType := by
      have same := determined file uninitialized
        (events ++ [.commandReceived (.plain type) script]) script
      simp only [ServerLoop.run, List.foldl_concat] at same
      have stale := (sound.receive (.plain type) script).receive_type command script
      rw [tree, unset] at stale
      exact stale.symm.trans (same tree)
    have ping : ReplyType.ok.number = _ := sent commandPing rfl
    have unknown : ReplyType.unknowncmd.number = _ := sent 0 rfl
    exact absurd (ping.trans unknown.symm) (by decide)
  · intro set file' uninitialized' events' script' other tree
    have otherSound : other.Sound := ServerLoop.run_sound file' uninitialized' events'
    obtain ⟨type, set⟩ := Option.isSome_iff_exists.1 set
    rw [otherSound.receive_type, sound.receive_type, tree, set]
    rfl

def emptyScript : Init2Script where
  change := id
  init2Result := none
  inodestats := fun _ => rfl
  bintreeAt := fun _ => rfl
  inodestatAt := fun _ => rfl

/-- The record of an inode without one is cleared: the reply is that to the command before. -/
theorem stale_reply :
    let start := ServerLoop.start .create ⟨0, 0, 0, []⟩
    let afterPing := start.run [.commandReceived (.plain commandPing) emptyScript]
    let afterUnknown := start.run [.commandReceived (.plain 77) emptyScript]
    let clear := RpcCommand.plain commandClearfileinfo
    afterPing.server.tree = afterUnknown.server.tree ∧
      (afterPing.receive clear emptyScript).reply.messageType = ReplyType.ok.number ∧
      (afterUnknown.receive clear emptyScript).reply.messageType = ReplyType.unknowncmd.number :=
  ⟨rfl, rfl, rfl⟩

end Scratchbox
