import Mathlib.Data.Multiset.AddSub

/-!
# `StratusSendStream` and `StratusConnection`

A send stream keeps the ids of the peers that connected to it. The connection is told when a
peer stream closes, and dispatches that to all listeners with no more than the id of the
peer; each send stream is a listener.
-/

namespace GtpLibrary.Stratus

/-- The stream of a peer. -/
structure NetStream where
  farID : String
  deriving DecidableEq

inductive PeerEventType
  | peerConnected
  | peerDisconnected
  deriving DecidableEq

/-- `StratusPeerEvent`. -/
structure PeerEvent where
  type : PeerEventType
  peerStream : NetStream
  peerId : String
  streamName : Option String
  deriving DecidableEq

inductive ConnectionEventType
  | connectedToServer
  | connectionClosed
  | connectionFailed
  deriving DecidableEq

/-- `event.info`; only the codes of peer streams come with a stream that is read. -/
structure Info where
  code : String
  stream : NetStream
  deriving DecidableEq

/-- What the connection dispatches. -/
inductive Dispatch
  | connection (type : ConnectionEventType) (address : String)
  | peer (event : PeerEvent)
  | netStatus (info : Info)
  deriving DecidableEq

/-! ## `StratusConnection` -/

/-- The `NetConnection` below, as far as it is read, and the two bindable members. -/
structure Connection where
  nearID : String
  uri : String
  connected : Bool := false
  myId : Option String := none
  deriving DecidableEq

namespace Connection

def onConnected (c : Connection) : Connection × Dispatch :=
  ({ c with connected := true, myId := some c.nearID }, .connection .connectedToServer c.uri)

def onConnectionClosed (c : Connection) : Connection × Dispatch :=
  ({ c with connected := false }, .connection .connectionClosed c.uri)

def onConnectionFailed (c : Connection) : Connection × Dispatch :=
  ({ c with connected := false }, .connection .connectionFailed c.uri)

def onPeerConnected (info : Info) : Dispatch :=
  .peer { type := .peerConnected, peerStream := info.stream, peerId := info.stream.farID, streamName := none }

def onPeerDisconnected (info : Info) : Dispatch :=
  .peer { type := .peerDisconnected, peerStream := info.stream, peerId := info.stream.farID, streamName := none }

/-- `onNetStatus`: every code leads to one dispatch. -/
def onNetStatus (c : Connection) (info : Info) : Connection × Dispatch :=
  if info.code = "NetConnection.Connect.Success" then c.onConnected
  else if info.code = "NetConnection.Connect.Closed" then c.onConnectionClosed
  else if info.code = "NetConnection.Connect.Failed" then c.onConnectionFailed
  else if info.code = "NetStream.Connect.Success" then (c, onPeerConnected info)
  else if info.code = "NetStream.Connect.Closed" then (c, onPeerDisconnected info)
  else (c, .netStatus info)

end Connection

/-! ## `StratusSendStream` -/

/-- `_streamName` is null until `publishStream`: the constructor assigns the member to
itself. -/
structure SendStream where
  streamName : Option String := none
  peerIDs : List String := []
  deriving DecidableEq

namespace SendStream

/-- `streamClient.onPeerConnect`, with what `acceptPeer` returned; the last component is what
it returns itself. -/
def onPeerConnect (s : SendStream) (accept : Bool) (ns : NetStream) : SendStream × List PeerEvent × Bool :=
  if accept then
    ({ s with peerIDs := s.peerIDs ++ [ns.farID] },
      [{ type := .peerConnected, peerStream := ns, peerId := ns.farID, streamName := s.streamName }], accept)
  else (s, [], accept)

def publishStream (s : SendStream) (streamName : String) : SendStream := { s with streamName := some streamName }

/-- The listener for `PEER_DISCONNECTED`: what it dispatches in turn, and the new members. -/
def peerDisconnected (s : SendStream) (event : PeerEvent) : SendStream × List PeerEvent :=
  if event.peerId ∈ s.peerIDs then
    ({ s with peerIDs := s.peerIDs.eraseIdx (s.peerIDs.idxOf event.peerId) },
      [{ type := .peerDisconnected, peerStream := event.peerStream, peerId := event.peerId, streamName := s.streamName }])
  else (s, [])

/-- One occurrence goes, if there is one. -/
theorem peerIDs_peerDisconnected (s : SendStream) (event : PeerEvent) :
    (s.peerDisconnected event).1.peerIDs = s.peerIDs.erase event.peerId := by
  unfold peerDisconnected
  split
  · exact (List.erase_eq_eraseIdx_of_idxOf rfl).symm
  · rename_i absent
    exact (List.erase_of_not_mem absent).symm

end SendStream

/-! ## The player -/

/-- The objects, the peer streams that are open (the send stream a peer connected to, and
the peer), and what the send streams dispatched at the last event. -/
structure World where
  connection : Connection
  sendStreams : List SendStream := []
  peers : Multiset (Nat × String) := 0
  dispatched : List (Nat × PeerEvent) := []

inductive Label
  | newStream
  | publish (stream : Nat) (streamName : String)
  | connect (stream : Nat) (peer : String) (accept : Bool)
  | disconnect (stream : Nat) (peer : String)
  | netStatus (info : Info)
  deriving DecidableEq

namespace World

/-- A dispatch of the connection reaches the send streams in the order they were made. -/
def deliver (w : World) : Dispatch → World
  | .peer event =>
    if event.type = .peerDisconnected then
      { w with
        sendStreams := w.sendStreams.map fun s => (s.peerDisconnected event).1
        dispatched := w.sendStreams.zipIdx.flatMap fun (s, i) => (s.peerDisconnected event).2.map fun e => (i, e) }
    else w
  | _ => w

/-- The player reports to the connection. -/
def netStatus (w : World) (info : Info) : World :=
  { w with connection := (w.connection.onNetStatus info).1, dispatched := [] }.deliver (w.connection.onNetStatus info).2

/-- One event. A peer stream that is open can close, and that is reported once; other codes
are reported at any time. -/
def step (w : World) : Label → Option World
  | .newStream => some { w with sendStreams := w.sendStreams ++ [{}], dispatched := [] }
  | .publish i streamName =>
    match w.sendStreams[i]? with
    | none => none
    | some s => some { w with sendStreams := w.sendStreams.set i (s.publishStream streamName), dispatched := [] }
  | .connect i peer accept =>
    match w.sendStreams[i]? with
    | none => none
    | some s =>
      let (s', events, accepted) := s.onPeerConnect accept ⟨peer⟩
      some { w with
        sendStreams := w.sendStreams.set i s'
        peers := if accepted then (i, peer) ::ₘ w.peers else w.peers
        dispatched := events.map fun e => (i, e) }
  | .disconnect i peer =>
    if (i, peer) ∈ w.peers then
      some ({ w with peers := w.peers.erase (i, peer) }.netStatus ⟨"NetStream.Connect.Closed", ⟨peer⟩⟩)
    else none
  | .netStatus info => if info.code = "NetStream.Connect.Closed" then none else some (w.netStatus info)

end World

end GtpLibrary.Stratus
