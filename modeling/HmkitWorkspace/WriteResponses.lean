import HmkitWorkspace.ConnectionHistory
import HmkitWorkspace.AuxiliaryVariables
import HmkitWorkspace.JustifiedTraces

/-! # Write responses and the reads they answer

A data read of 106 raises one global flag; the address in the response is that of the write
accepted last on 106. The two belong together only while the peers take turns. -/
namespace WriteResponses

open TransitionRuns AuxiliaryVariables JustifiedTraces HmkitCoreConnectivityHal
  ConnectionTableInvariant ReadBuffers ConnectionHistory

inductive Mark where
  | read (handle : HciConHandle) (mac : Mac)
  | closed (handle : HciConHandle)
  | responded (mac : Mac)

abbrev Log := List Mark

def response : Call → Option Mark
  | .linkWriteResponse mac _ => some (.responded mac)
  | _ => none

/-- Data reads of 106 by live connections, and ends of connections. -/
def observed (w : World) : Event → Log
  | .attRead handle attHandle _ valid _ _ =>
    match w.peers handle with
    | some q =>
      if valid = true ∧ attHandle = Channel.sensing.valueHandle then [.read handle q.mac] else []
    | none => []
  | .hci (.disconnectionComplete handle) => [.closed handle]
  | _ => []

abbrev Logged := Augmented World Log

def Logged.initial : Logged := ⟨World.initial, []⟩

/-- The connection has read 106, still lives, and no response was emitted since. -/
def Unanswered (log : Log) (handle : HciConHandle) (mac : Mac) : Prop :=
  ∃ before after, log = before ++ .read handle mac :: after ∧ .closed handle ∉ after ∧
    ∀ m, .responded m ∉ after

def Acknowledges (log : Log) (mac : Mac) : Prop := ∃ handle, Unanswered log handle mac

/-- A read that raises the flag is made by the peer written last on 106; while the flag is up
only a peer with a read to be answered is written to on 106, and the peer written last stays. -/
def Orderly (w : Logged) : Event → Prop
  | .attRead handle attHandle _ valid _ _ =>
    valid = true → attHandle = Channel.sensing.valueHandle →
      (getBtConnectionUsingHandle w.state.hal.btConnections handle).isSome = true →
      w.state.hal.blinkWriteResp = false →
      (∃ recorded, w.state.peers handle = some ⟨w.state.hal.readBufferMac .sensing, recorded⟩) ∨
        Acknowledges w.record (w.state.hal.readBufferMac .sensing)
  | .writeData mac _ characteristic =>
    w.state.hal.blinkWriteResp = true → ∀ i,
      writeTarget w.state.hal mac characteristic = some (i, .sensing) → Acknowledges w.record mac
  | .hci (.disconnectionComplete handle) =>
    w.state.hal.blinkWriteResp = true → ∀ recorded,
      w.state.peers handle ≠ some ⟨w.state.hal.readBufferMac .sensing, recorded⟩
  | _ => True

variable {w v : Logged} {s u : State} {e : Event} {out : List Call} {log : Log} {mac m : Mac}
  {handle hd : HciConHandle} {x : Mark} {tr : List (Transition Logged Event Call)}

/-! ## The log -/

end WriteResponses
