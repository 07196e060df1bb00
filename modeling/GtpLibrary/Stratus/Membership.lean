import Mathlib.Data.Multiset.Filter
import GtpLibrary.Lib.Runs
import GtpLibrary.Stratus.SendStream

/-!
# Who is connected to which stream

The player knows which stream a peer left; the listeners learn the peer alone, and each one
that has the peer takes it out. After every event the members are right exactly as long as
no peer leaves one stream while it is connected to another (`membership_iff`).
-/

namespace GtpLibrary.Stratus

open Lib

namespace World

/-- The peers that are connected to a stream. -/
def connectedTo (w : World) (i : Nat) : Multiset String :=
  (w.peers.filter fun q => q.1 = i).map Prod.snd

/-- Each stream's `peerIDs` are the peers connected to it. -/
def Exact (w : World) : Prop :=
  ∀ i s, w.sendStreams[i]? = some s → (s.peerIDs : Multiset String) = w.connectedTo i

/-- `PEER_DISCONNECTED` was dispatched only for a peer that left the stream. -/
def Proper (w : World) (label : Label) : Prop :=
  ∀ i e, (i, e) ∈ w.dispatched → e.type = .peerDisconnected → label = .disconnect i e.peerId

/-- The event leaves the members right, and dispatches what is proper. -/
def Told (w : World) (label : Label) : Prop := ∀ w', w.step label = some w' → w'.Exact ∧ w'.Proper label

/-- A peer that leaves a stream is connected to no other one. -/
def Solitary (w : World) : Label → Prop
  | .disconnect i peer => (i, peer) ∈ w.peers → ∀ j, (j, peer) ∈ w.peers → j = i
  | _ => True

/-- Peers are connected to streams that exist. -/
def Placed (w : World) : Prop := ∀ q ∈ w.peers, q.1 < w.sendStreams.length

end World

section
variable {w w' : World} {label : Label} {i j : Nat} {s : SendStream} {peer id : String} {event : PeerEvent}

theorem count_connectedTo (w : World) (i : Nat) (id : String) : (w.connectedTo i).count id = w.peers.count (i, id) := by
  unfold World.connectedTo
  induction w.peers using Multiset.induction with
  | empty => rfl
  | cons q peers ih =>
    obtain ⟨j, peer⟩ := q
    by_cases here : j = i
    · subst here
      have first : ((j, peer) ::ₘ peers).filter (fun q => q.1 = j) = (j, peer) ::ₘ peers.filter fun q => q.1 = j :=
        Multiset.filter_cons_of_pos _ rfl
      rw [first, Multiset.map_cons, Multiset.count_cons, Multiset.count_cons, ih]
      simp
    · have first : ((j, peer) ::ₘ peers).filter (fun q => q.1 = i) = peers.filter fun q => q.1 = i :=
        Multiset.filter_cons_of_neg _ here
      rw [first, Multiset.count_cons_of_ne (by simp [Ne.symm here]), ih]

/-- The members are right where they are counted right. -/
theorem exact_iff : w.Exact ↔
    ∀ i s, w.sendStreams[i]? = some s → ∀ id, (s.peerIDs : Multiset String).count id = w.peers.count (i, id) := by
  unfold World.Exact
  refine forall_congr' fun i => forall_congr' fun s => forall_congr' fun there => ?_
  rw [Multiset.ext]
  exact forall_congr' fun id => by rw [count_connectedTo]

/-! ## Steps -/

/-- The event that all listeners get when a peer leaves. -/
def left (peer : String) : PeerEvent :=
  { type := .peerDisconnected, peerStream := ⟨peer⟩, peerId := peer, streamName := none }

/-- A peer stream that is open can close. -/
theorem exists_step (here : (i, peer) ∈ w.peers) : ∃ w', w.step (.disconnect i peer) = some w' := by
  simp only [World.step]
  rw [if_pos here]
  exact ⟨_, rfl⟩

/-- A disconnection goes to every stream. -/
theorem step_disconnect (taken : w.step (.disconnect i peer) = some w') : (i, peer) ∈ w.peers ∧
    w'.peers = w.peers.erase (i, peer) ∧
    w'.sendStreams = w.sendStreams.map (fun s => (s.peerDisconnected (left peer)).1) ∧
    w'.dispatched = w.sendStreams.zipIdx.flatMap fun (s, i) => (s.peerDisconnected (left peer)).2.map fun e => (i, e) := by
  simp only [World.step] at taken
  split at taken
  · rename_i here
    cases taken
    exact ⟨here, rfl, rfl, rfl⟩
  · cases taken

/-- Which streams dispatch it. -/
theorem mem_dispatched (taken : w.step (.disconnect i peer) = some w') {e : PeerEvent} : (j, e) ∈ w'.dispatched ↔
    ∃ s, w.sendStreams[j]? = some s ∧ e ∈ (s.peerDisconnected (left peer)).2 := by
  obtain ⟨-, -, -, dispatched⟩ := step_disconnect taken
  rw [dispatched, List.mem_flatMap]
  constructor
  · rintro ⟨⟨s, k⟩, there, member⟩
    obtain ⟨e', here, same⟩ := List.mem_map.1 member
    cases same
    exact ⟨s, List.mem_zipIdx_iff_getElem?.1 there, here⟩
  · rintro ⟨s, there, member⟩
    exact ⟨(s, j), List.mem_zipIdx_iff_getElem?.2 there, List.mem_map.2 ⟨e, member, rfl⟩⟩

theorem step_publish {streamName : String} (taken : w.step (.publish i streamName) = some w') :
    ∃ s, w.sendStreams[i]? = some s ∧ w'.sendStreams = w.sendStreams.set i (s.publishStream streamName) ∧
      w'.peers = w.peers ∧ w'.dispatched = [] := by
  simp only [World.step] at taken
  split at taken
  · cases taken
  · rename_i s there
    cases taken
    exact ⟨s, there, rfl, rfl, rfl⟩

/-- A peer that is not accepted leaves no trace. -/
theorem step_connect {accept : Bool} (taken : w.step (.connect i peer accept) = some w') :
    ∃ s, w.sendStreams[i]? = some s ∧
      (accept = true ∧ w'.sendStreams = w.sendStreams.set i { s with peerIDs := s.peerIDs ++ [peer] } ∧
        w'.peers = (i, peer) ::ₘ w.peers ∧ (∀ d ∈ w'.dispatched, d.2.type = .peerConnected) ∨
      accept = false ∧ w'.sendStreams = w.sendStreams ∧ w'.peers = w.peers ∧ w'.dispatched = []) := by
  simp only [World.step] at taken
  split at taken
  · cases taken
  · rename_i s there
    cases taken
    refine ⟨s, there, ?_⟩
    cases accept with
    | true => exact .inl ⟨rfl, rfl, rfl, by simp [SendStream.onPeerConnect]⟩
    | false =>
      obtain ⟨inside, at_i⟩ := List.getElem?_eq_some_iff.1 there
      have unchanged : w.sendStreams.set i s = w.sendStreams := by rw [← at_i, List.set_getElem_self]
      exact .inr ⟨rfl, unchanged, rfl, rfl⟩

/-- What a code other than that of a closed peer stream leads to. -/
theorem onNetStatus_other {c : Connection} {info : Info} (other : info.code ≠ "NetStream.Connect.Closed") :
    ∀ event, (c.onNetStatus info).2 = .peer event → event.type = .peerConnected := by
  intro event same
  unfold Connection.onNetStatus at same
  rw [if_neg other] at same
  split at same
  · cases same
  · split at same
    · cases same
    · split at same
      · cases same
      · split at same
        · cases same
          rfl
        · cases same

theorem step_netStatus {info : Info} (taken : w.step (.netStatus info) = some w') :
    w'.sendStreams = w.sendStreams ∧ w'.peers = w.peers ∧ w'.dispatched = [] := by
  simp only [World.step] at taken
  split at taken
  · cases taken
  · rename_i other
    cases taken
    unfold World.netStatus
    cases told : (w.connection.onNetStatus info).2 with
    | connection type address => exact ⟨rfl, rfl, rfl⟩
    | netStatus info => exact ⟨rfl, rfl, rfl⟩
    | peer event =>
      have type := onNetStatus_other other event told
      simp [World.deliver, type]

/-! ## The members -/

/-- The peers stay with streams that exist. -/
theorem World.Placed.step (placed : w.Placed) (taken : w.step label = some w') : w'.Placed := by
  intro q member
  cases label with
  | newStream =>
    cases taken
    have before := placed q member
    simp only [List.length_append, List.length_singleton]
    omega
  | publish i streamName =>
    obtain ⟨s, -, streams, peers, -⟩ := step_publish taken
    rw [streams, List.length_set]
    exact placed q (peers ▸ member)
  | connect i peer accept =>
    obtain ⟨s, there, ⟨-, streams, peers, -⟩ | ⟨-, streams, peers, -⟩⟩ := step_connect taken
    · rw [streams, List.length_set]
      rw [peers] at member
      rcases Multiset.mem_cons.1 member with rfl | before
      · exact (List.getElem?_eq_some_iff.1 there).1
      · exact placed q before
    · rw [streams]
      exact placed q (peers ▸ member)
  | disconnect i peer =>
    obtain ⟨-, peers, streams, -⟩ := step_disconnect taken
    rw [peers] at member
    rw [streams, List.length_map]
    exact placed q (Multiset.mem_of_mem_erase member)
  | netStatus info =>
    obtain ⟨streams, peers, -⟩ := step_netStatus taken
    rw [streams]
    exact placed q (peers ▸ member)

/-- A stream that is put in place of another with its peers. -/
theorem exact_set {s' : SendStream} (exact : w.Exact) (there : w.sendStreams[i]? = some s)
    (streams : w'.sendStreams = w.sendStreams.set i s')
    (others : ∀ j, j ≠ i → w'.connectedTo j = w.connectedTo j)
    (here : (s.peerIDs : Multiset String) = w.connectedTo i → (s'.peerIDs : Multiset String) = w'.connectedTo i) :
    w'.Exact := by
  intro j t found
  rw [streams] at found
  by_cases same : j = i
  · subst same
    rw [List.getElem?_set_self (List.getElem?_eq_some_iff.1 there).1, Option.some.injEq] at found
    exact found ▸ here (exact j s there)
  · rw [List.getElem?_set_ne (Ne.symm same)] at found
    rw [others j same]
    exact exact j t found

/-- What is not dispatched is proper. -/
theorem proper_of_silent (silent : w'.dispatched = []) : w'.Proper label := by
  intro i e member
  rw [silent] at member
  cases member

theorem World.Exact.of_eq (exact : w.Exact) (streams : w'.sendStreams = w.sendStreams) (peers : w'.peers = w.peers) :
    w'.Exact := by
  rw [exact_iff] at exact ⊢
  rw [streams, peers]
  exact exact

/-- Nobody can be connected to the stream that was just made. -/
theorem World.Exact.newStream (exact : w.Exact) (placed : w.Placed)
    (streams : w'.sendStreams = w.sendStreams ++ [⟨none, []⟩])
    (peers : w'.peers = w.peers) : w'.Exact := by
  rw [exact_iff] at exact ⊢
  rw [streams, peers]
  intro j s found id
  rcases Nat.lt_or_ge j w.sendStreams.length with old | new
  · rw [List.getElem?_append_left old] at found
    exact exact j s found id
  · have nobody : (j, id) ∉ w.peers := fun member => absurd (placed _ member) (Nat.not_lt.2 new)
    rw [List.getElem?_append_right new] at found
    have fresh : s = ⟨none, []⟩ := List.mem_singleton.1 (List.mem_of_getElem? found)
    rw [fresh]
    exact (Multiset.count_eq_zero.2 nobody).symm

/-- A peer that was accepted is recorded where it is connected. -/
theorem World.Exact.connect (exact : w.Exact) (there : w.sendStreams[i]? = some s)
    (streams : w'.sendStreams = w.sendStreams.set i { s with peerIDs := s.peerIDs ++ [peer] })
    (peers : w'.peers = (i, peer) ::ₘ w.peers) : w'.Exact := by
  apply exact_set exact there streams
  · intro j apart
    ext id
    rw [count_connectedTo, count_connectedTo, peers, Multiset.count_cons_of_ne]
    exact fun same => apart (congrArg Prod.fst same)
  · intro before
    have added : ((s.peerIDs ++ [peer] : List String) : Multiset String) = peer ::ₘ (s.peerIDs : Multiset String) :=
      Multiset.coe_eq_coe.2 (List.perm_append_singleton peer s.peerIDs)
    ext id
    rw [added, before, Multiset.count_cons, count_connectedTo, count_connectedTo, peers, Multiset.count_cons]
    simp only [Prod.mk.injEq, true_and]

/-- An event other than a disconnection leaves things right. -/
theorem World.Exact.told (exact : w.Exact) (placed : w.Placed) (other : ∀ i peer, label ≠ .disconnect i peer) :
    w.Told label := by
  intro w' taken
  cases label with
  | newStream =>
    cases taken
    exact ⟨exact.newStream placed rfl rfl, proper_of_silent rfl⟩
  | publish i streamName =>
    obtain ⟨s, there, streams, peers, silent⟩ := step_publish taken
    have connected : ∀ j, w'.connectedTo j = w.connectedTo j := fun j => by rw [World.connectedTo, peers]; rfl
    constructor
    · apply exact_set exact there streams fun j _ => connected j
      intro before
      rw [connected i]
      exact before
    · exact proper_of_silent silent
  | connect i peer accept =>
    obtain ⟨s, there, ⟨-, streams, peers, dispatched⟩ | ⟨-, streams, peers, silent⟩⟩ := step_connect taken
    · refine ⟨exact.connect there streams peers, ?_⟩
      intro j e member type
      rw [dispatched _ member] at type
      cases type
    · exact ⟨exact.of_eq streams peers, proper_of_silent silent⟩
  | disconnect i peer => exact absurd rfl (other i peer)
  | netStatus info =>
    obtain ⟨streams, peers, silent⟩ := step_netStatus taken
    exact ⟨exact.of_eq streams peers, proper_of_silent silent⟩

/-- What a stream dispatches when a peer leaves: nothing, unless it has the peer. -/
theorem mem_peerDisconnected {e : PeerEvent} :
    e ∈ (s.peerDisconnected event).2 ↔ event.peerId ∈ s.peerIDs ∧
      e = { type := .peerDisconnected, peerStream := event.peerStream, peerId := event.peerId,
            streamName := s.streamName } := by
  unfold SendStream.peerDisconnected
  split
  · rename_i here
    simp [here]
  · rename_i absent
    simp [absent]

/-- A stream has a peer exactly when it is connected. -/
theorem World.Exact.mem_iff (exact : w.Exact) (found : w.sendStreams[j]? = some s) :
    id ∈ s.peerIDs ↔ (j, id) ∈ w.peers := by
  rw [← Multiset.mem_coe, ← Multiset.count_pos, exact_iff.1 exact j s found id, Multiset.count_pos]

/-- A disconnection leaves things right where the peer is connected to no other stream. -/
theorem World.Exact.told_disconnect (exact : w.Exact) (solitary : w.Solitary (.disconnect i peer)) :
    w.Told (.disconnect i peer) := by
  intro w' taken
  obtain ⟨open_i, peers, streams, -⟩ := step_disconnect taken
  constructor
  · rw [exact_iff] at *
    intro j t found id
    rw [streams, List.getElem?_map, Option.map_eq_some_iff] at found
    obtain ⟨s, found, rfl⟩ := found
    have before := exact j s found id
    rw [SendStream.peerIDs_peerDisconnected, ← Multiset.coe_erase, peers]
    change Multiset.count id (Multiset.erase _ peer) = _
    by_cases same : id = peer
    · subst same
      rw [Multiset.count_erase_self, before]
      by_cases here : j = i
      · subst here
        exact (Multiset.count_erase_self _ _).symm
      · -- the stream does not have the peer, so there is nothing to erase
        have absent : w.peers.count (j, id) = 0 := Multiset.count_eq_zero.2 fun member => here (solitary open_i j member)
        rw [Multiset.count_erase_of_ne (by simp [here]), absent]
    · rw [Multiset.count_erase_of_ne same, Multiset.count_erase_of_ne (by simp [same]), before]
  · intro j e member _
    obtain ⟨s, found, member⟩ := (mem_dispatched taken).1 member
    obtain ⟨has, rfl⟩ := mem_peerDisconnected.1 member
    rw [solitary open_i j ((exact.mem_iff found).1 has)]
    rfl

/-- Another stream that has the peer dispatches what is not proper. -/
theorem World.Exact.solitary_of_told (exact : w.Exact) (placed : w.Placed) (told : w.Told (.disconnect i peer)) :
    w.Solitary (.disconnect i peer) := by
  intro open_i j open_j
  obtain ⟨w', taken⟩ := exists_step open_i
  have inside : j < w.sendStreams.length := placed _ open_j
  have found : w.sendStreams[j]? = some w.sendStreams[j] := List.getElem?_eq_getElem inside
  have has := (exact.mem_iff found).2 open_j
  have dispatched := (mem_dispatched taken).2 ⟨_, found, mem_peerDisconnected.2 ⟨has, rfl⟩⟩
  cases (told w' taken).2 j _ dispatched rfl
  rfl

/-- The step lemma of the members. -/
theorem World.Exact.told_iff (exact : w.Exact) (placed : w.Placed) : w.Told label ↔ w.Solitary label := by
  cases label with
  | disconnect i peer => exact ⟨exact.solitary_of_told placed, exact.told_disconnect⟩
  | _ => exact ⟨fun _ => trivial, fun _ => exact.told placed fun _ _ same => by cases same⟩

end

/-- Over every run the streams have the peers that are connected to them, and tell of no other
peer that it left, exactly when each peer that leaves is connected to no other stream then. -/
theorem membership_iff (connection : Connection) (labels : List Label) :
    Along World.step World.Told { connection } labels ↔ Along World.step World.Solitary { connection } labels := by
  apply along_congr fun w => w.Exact ∧ w.Placed
  · rintro w label ⟨exact, placed⟩
    exact exact.told_iff placed
  · rintro w w' label ⟨-, placed⟩ told taken
    exact ⟨(told w' taken).1, placed.step taken⟩
  · constructor
    · intro i s found
      cases found
    · intro q member
      exact absurd member (Multiset.notMem_zero q)

/-- One peer on two streams. -/
def onBoth : World :=
  { connection := ⟨"a", "rtmfp://stratus", true, none⟩
    sendStreams := [⟨none, ["b"]⟩, ⟨none, ["b"]⟩]
    peers := {(1, "b"), (0, "b")}
    dispatched := [(1, ⟨.peerConnected, ⟨"b"⟩, "b", none⟩)] }

def connectTwice : List Label := [.newStream, .newStream, .connect 0 "b" true, .connect 1 "b" true]

theorem run_connectTwice :
    run World.step { connection := ⟨"a", "rtmfp://stratus", true, none⟩ } connectTwice = some onBoth := rfl

/-- When it leaves the first, the second dispatches `PEER_DISCONNECTED` and forgets it, though
it is still connected there. -/
theorem second_stream_forgets :
    ¬ Along World.step World.Told { connection := ⟨"a", "rtmfp://stratus", true, none⟩ }
      (connectTwice ++ [.disconnect 0 "b"]) := by
  intro along
  have told := ((along_append.1 along).2 _ run_connectTwice).1
  have here : (0, "b") ∈ onBoth.peers := by decide
  obtain ⟨w', taken⟩ := exists_step here
  obtain ⟨-, peers, streams, -⟩ := step_disconnect taken
  have forgotten : w'.sendStreams[1]? = some ⟨none, []⟩ := by
    rw [streams]
    decide
  have exact := (told w' taken).1 1 _ forgotten
  rw [World.connectedTo, peers] at exact
  revert exact
  decide

end GtpLibrary.Stratus
