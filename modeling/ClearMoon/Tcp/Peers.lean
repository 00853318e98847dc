import ClearMoon.Core.Duplex
import ClearMoon.Tcp.Shutdown
import ClearMoon.Tcp.Stream

/-!
# Two connections joined by a socket

Both ends of a TCP connection are connections of this library, each in a loop of its own. What one
of them hands to its kernel reaches the other one in order, and `readv` may return any part of what
is in flight. The end of the stream is read when the other side has shut its socket down for
writing or has closed it, and nothing is in flight any more; a connection that is reset reads an
error, at any time.
-/

namespace ClearMoon.Tcp

open ClearMoon.Net ClearMoon.Timer

/-- A connection with its socket. -/
structure Peer where
  loop : TcpLoop
  /-- The destructor of `Socket` has closed the descriptor. -/
  closed : Bool := false
  /-- What message callbacks have taken out of `readBuffer_`. -/
  retrieved : Bytes := []

inductive PeerAction where
  | loop (a : Action)
  /-- The last reference to a connection is dropped that has been closed. -/
  | close

namespace Peer

def start (fd : Nat) (callbacks : Callback → Bool) (disk : Bytes → Bytes) : Peer where
  loop := .start fd callbacks disk

def step (p : Peer) : PeerAction → Option Peer
  | .loop a =>
    if p.closed then none
    else (p.loop.step a).map fun loop =>
      { p with loop, retrieved := p.retrieved ++ p.loop.retrieves a }
  | .close =>
    if p.closed = false ∧ p.loop.conn.state = .kDisConnected then some { p with closed := true }
    else none

def takes (p : Peer) : PeerAction → Bytes
  | .loop a => p.loop.reads a
  | .close => []

/-- `readv` answers that the stream has ended. -/
def toldEnd (p : Peer) : PeerAction → Bool
  | .loop a => p.loop.readv? a = some (.done [])
  | .close => false

/-- The connection as an end of the two streams. -/
def endpoint : Endpoint Peer PeerAction UInt8 where
  step := step
  sent p := handed p.loop.trace
  takes := takes
  toldEnd := toldEnd
  ended p := p.loop.writeShut || p.closed

variable {p q : Peer} {a : PeerAction}

/-- What a step of the connection requires, where it is one. -/
def Obeys (guard : TcpLoop → Action → Prop) (p : Peer) : PeerAction → Prop
  | .loop a => guard p.loop a
  | .close => True

instance (guard : TcpLoop → Action → Prop) [∀ w a, Decidable (guard w a)] (p : Peer)
    (a : PeerAction) : Decidable (p.Obeys guard a) :=
  match a with
  | .loop a => inferInstanceAs (Decidable (guard p.loop a))
  | .close => inferInstanceAs (Decidable True)

/-- A side makes a step of its loop, or closes its descriptor. -/
theorem cases_of_step (h : p.step a = some q) :
    (∃ b, a = .loop b ∧ p.closed = false ∧ p.loop.step b = some q.loop ∧ q.closed = false ∧
      q.retrieved = p.retrieved ++ p.loop.retrieves b) ∨
    (a = .close ∧ q = { p with closed := true }) := by
  cases a with
  | loop b =>
    obtain ⟨hopen, h⟩ := Option.ite_none_left_eq_some.mp h
    obtain ⟨loop, hloop, rfl⟩ := Option.map_eq_some_iff.mp h
    have hopen : p.closed = false := by simpa using hopen
    exact .inl ⟨b, rfl, hopen, hloop, hopen, rfl⟩
  | close =>
    obtain ⟨-, h⟩ := Option.ite_none_right_eq_some.mp h
    obtain rfl := Option.some.inj h
    exact .inr ⟨rfl, rfl⟩

/-- What a side has sent only grows, and no more behind the end of its stream. -/
theorem lawful : endpoint.Lawful where
  sent {p a q} h := by
    rcases cases_of_step h with ⟨b, rfl, -, hstep, -⟩ | ⟨rfl, rfl⟩
    · obtain ⟨-, es, htrace, -⟩ := TcpLoop.stream_of_step hstep
      exact ⟨handed es, by simp only [endpoint, htrace, handed_append]⟩
    · exact List.prefix_rfl
  ended {p a q} h hended := by
    rcases cases_of_step h with ⟨b, rfl, hopen, hstep, -⟩ | ⟨rfl, rfl⟩
    · obtain ⟨-, es, htrace, hhanded, hshut⟩ := TcpLoop.stream_of_step hstep
      have hbefore : p.loop.writeShut = true := by simpa [endpoint, hopen] using hended
      refine ⟨?_, ?_⟩
      · simp only [endpoint, htrace, handed_append, hhanded hbefore, List.append_nil]
      · simp [endpoint, hshut.mpr (.inl hbefore)]
    · exact ⟨rfl, by simp [endpoint]⟩

/-- What has been read is what message callbacks have retrieved, and the input. -/
theorem retrieved_of_step (h : endpoint.step p a = some q) :
    q.retrieved ++ q.loop.input = (p.retrieved ++ p.loop.input) ++ endpoint.takes p a := by
  rcases cases_of_step h with ⟨b, rfl, -, hstep, -, hretrieved⟩ | ⟨rfl, rfl⟩
  · obtain ⟨hinput, -⟩ := TcpLoop.stream_of_step hstep
    change _ = (p.retrieved ++ p.loop.input) ++ p.loop.reads b
    rw [hretrieved, List.append_assoc, hinput, List.append_assoc]
  · exact (List.append_nil _).symm

/-- What holds of a connection in every run that obeys a guard. -/
theorem invariant_of_run {guard : TcpLoop → Action → Prop} {I : TcpLoop → Prop}
    {as : List PeerAction} (h : Run step (Obeys guard) p as q) (hinit : I p.loop)
    (hstep : ∀ w a w', I w → guard w a → w.step a = some w' → I w') : I q.loop := by
  refine h.invariant (I := fun p => I p.loop) hinit fun p a q hp hg hs => ?_
  rcases cases_of_step hs with ⟨b, rfl, -, hloop, -⟩ | ⟨rfl, rfl⟩
  · exact hstep _ _ _ hp hg hloop
  · exact hp

end Peer

namespace TcpLoop

variable {w : TcpLoop}

/-- What has been handed over is the beginning of what was accepted. -/
theorem handed_prefix (h : w.view.Ordered) :
    handed w.trace <+: contents w.disk (accepted w.trace) := by
  have hline := h.line_prefix
  rw [View.line, List.append_assoc] at hline
  have hprefix := (List.prefix_append _ _).trans hline
  have htrace : handed w.view.trace = handed w.trace := handed_filter _
  have haccepted : accepted w.view.trace = accepted w.trace := accepted_filter _
  rwa [htrace, haccepted] at hprefix

/-- The rest of it is in the buffer, in the file, or to be taken into the loop. -/
theorem handed_eq (h : w.view.Ordered) (hopen : ¬w.view.closed) :
    handed w.trace ++ w.conn.writeBuffer.readable ++ w.unsent ++
      contents w.disk (outputs w.functors) = contents w.disk (accepted w.trace) := by
  have hexact := h.opened hopen
  have htrace : handed w.view.trace = handed w.trace := handed_filter _
  have haccepted : accepted w.view.trace = accepted w.trace := accepted_filter _
  rw [View.line, htrace, haccepted] at hexact
  exact hexact.symm

end TcpLoop

/-! ## The two of them -/

/-- Two connections that have just been made. -/
def Peers.start (fd : Side → Nat) (callbacks : Side → Callback → Bool)
    (disk : Side → Bytes → Bytes) : Duplex Peer UInt8 :=
  .start fun s => .start (fd s) (callbacks s) (disk s)

/-- One of the two obeys a guard. -/
def Peers.Obeys (s : Side) (guard : TcpLoop → Action → Prop) (d : Duplex Peer UInt8)
    (label : Side × PeerAction) : Prop :=
  label.1 = s → (d.peer s).Obeys guard label.2

instance (s : Side) (guard : TcpLoop → Action → Prop) [∀ w a, Decidable (guard w a)]
    (d : Duplex Peer UInt8) (label : Side × PeerAction) :
    Decidable (Peers.Obeys s guard d label) := inferInstanceAs (Decidable (_ → _))

namespace Peers

variable {fd : Side → Nat} {callbacks : Side → Callback → Bool} {disk : Side → Bytes → Bytes}
  {d : Duplex Peer UInt8} {as : List (Side × PeerAction)}

/-- What holds of one of the two in every run in which it obeys a guard. -/
theorem invariant_of_run {guard : TcpLoop → Action → Prop} {I : TcpLoop → Prop} {s : Side}
    (h : Run (Duplex.step Peer.endpoint) (Obeys s guard) (start fd callbacks disk) as d)
    (hinit : I (.start (fd s) (callbacks s) (disk s)))
    (hstep : ∀ w a w', I w → guard w a → w.step a = some w' → I w') : I (d.peer s).loop := by
  have hrun := Duplex.run_peer (g := Peer.Obeys guard) (s := s) h fun _ _ hg => hg rfl
  exact Peer.invariant_of_run hrun hinit hstep

/-- What one side has read is what the other one has handed over, but for what is in flight. -/
theorem read_of_run {guard : Duplex Peer UInt8 → Side × PeerAction → Prop}
    (h : Run (Duplex.step Peer.endpoint) guard (start fd callbacks disk) as d) (s : Side) :
    (d.peer s).retrieved ++ (d.peer s).loop.input ++ d.inFlight s =
      handed (d.peer s.other).loop.trace := by
  have hconserved := Duplex.streams_of_run h Peer.lawful fun _ => rfl
  have hreceived := Duplex.received_of_run (f := fun p : Peer => p.retrieved ++ p.loop.input) h
    Peer.retrieved_of_step (fun _ => rfl) s
  rw [← hreceived]
  exact hconserved.stream s

/-- What holds of one side in every run in which it sends in order. -/
theorem ordered_of_run {s : Side}
    (h : Run (Duplex.step Peer.endpoint) (Obeys s TcpLoop.InOrder) (start fd callbacks disk) as
      d) : (d.peer s).loop.view.Ordered ∧ (d.peer s).loop.disk = disk s := by
  refine (invariant_of_run (I := fun w => w.view.Sound ∧ w.view.Ordered ∧ w.disk = disk s) h
    ⟨TcpLoop.sound_start .., TcpLoop.ordered_start .., rfl⟩ ?_).2
  rintro w a w' ⟨hsound, hordered, hdisk⟩ hg hstep
  have he := TcpLoop.effect_of_step hsound.sized hstep
  exact ⟨TcpLoop.sound_effect hsound he,
    TcpLoop.ordered_effect hordered hsound (TcpLoop.aborted_of_step hstep) hg he,
    he.disk.trans hdisk⟩

/-- Whatever one side reads, in whatever pieces, is what the other one was given to send, in the
order of the calls and without gaps; and while the sender is open, the bytes that have not been
retrieved are in the input, in flight, in the output buffer, in the file, or to be taken into the
loop. -/
theorem stream_of_run {s : Side}
    (h : Run (Duplex.step Peer.endpoint) (Obeys s.other TcpLoop.InOrder)
      (start fd callbacks disk) as d) :
    (d.peer s).retrieved ++ (d.peer s).loop.input <+:
      contents (disk s.other) (accepted (d.peer s.other).loop.trace) ∧
    (¬(d.peer s.other).loop.view.closed →
      (d.peer s).retrieved ++ (d.peer s).loop.input ++ d.inFlight s ++
        (d.peer s.other).loop.conn.writeBuffer.readable ++ (d.peer s.other).loop.unsent ++
        contents (disk s.other) (outputs (d.peer s.other).loop.functors) =
      contents (disk s.other) (accepted (d.peer s.other).loop.trace)) := by
  have hread := read_of_run h s
  obtain ⟨hordered, hdisk⟩ := ordered_of_run h
  rw [← hdisk]
  refine ⟨?_, fun hopen => ?_⟩
  · refine List.IsPrefix.trans ?_ (TcpLoop.handed_prefix hordered)
    exact ⟨d.inFlight s, hread⟩
  · rw [hread]
    exact TcpLoop.handed_eq hordered hopen

/-- Steps of one of the connections. -/
def loops (s : Side) (as : List Action) : List (Side × PeerAction) := as.map fun a => (s, .loop a)

/-- A message is written in two pieces and read in two others, the first of which has been
retrieved. -/
def inPieces : List (Side × PeerAction) :=
  loops .near (TcpLoop.establishing ++
    [.call (.send [1, 2, 3]), .run { timer := 2, write := .done 2 }, .ret]) ++
  loops .far (TcpLoop.establishing ++ [.ret] ++ TcpLoop.readable 2 (.done [1]) ++
    [.retrieve 1]) ++
  loops .near (TcpLoop.writeable 2 (.done 9) .again)

/-- Three bytes of which one is read and two are under way. -/
theorem stream_of_run_inPieces :
    ∃ d, Run (Duplex.step Peer.endpoint) (Obeys .near TcpLoop.InOrder)
        (start (fun _ => 7) (fun _ _ => true) fun _ => id) inPieces d ∧
      (d.peer .far).retrieved = [1] ∧ d.inFlight .far = [2, 3] ∧
      (d.peer .far).retrieved ++ (d.peer .far).loop.input <+:
        contents id (accepted (d.peer .near).loop.trace) := by
  have hreplay : (replay (Duplex.step Peer.endpoint) (Obeys .near TcpLoop.InOrder)
      (start (fun _ => 7) (fun _ _ => true) fun _ => id) inPieces).map
        (fun d => ((d.peer .far).retrieved, d.inFlight .far)) = some ([1], [2, 3]) := by
    decide +kernel
  obtain ⟨d, hd, he⟩ := Option.map_eq_some_iff.mp hreplay
  obtain ⟨hretrieved, hflight⟩ := Prod.mk.inj he
  exact ⟨d, .of_replay hd, hretrieved, hflight, (stream_of_run (s := .far) (.of_replay hd)).1⟩

/-! ## Delivery -/

/-- What a connection requires to shut down gracefully, and to send in order. -/
structure Delivers (w : TcpLoop) (a : Action) : Prop where
  inOrder : w.InOrder a
  drains : w.Drains a

instance (w : TcpLoop) (a : Action) : Decidable (Delivers w a) :=
  decidable_of_iff (w.InOrder a ∧ w.Drains a) ⟨fun h => ⟨h.1, h.2⟩, fun h => ⟨h.1, h.2⟩⟩

end Peers

/-- As many bytes have been handed over as were accepted. -/
theorem Drained.length_handed {disk : Bytes → Bytes} {trace : List Event}
    (h : Drained disk trace) : (handed trace).length = (contents disk (accepted trace)).length := by
  obtain ⟨os, hperm, hwrote, hsent⟩ := h
  have hsplit (es : List Event) :
      (handed es).length = (wrote es).length + (sentFile es).length := by
    induction es with
    | nil => rfl
    | cons e es ih =>
      simp only [handed, wrote, sentFile, List.flatMap_cons, List.length_append] at ih ⊢
      omega
  have hkinds (os : List Output) :
      (contents disk os).length = (messageBytes os).length + (fileBytes disk os).length := by
    induction os with
    | nil => rfl
    | cons o os ih =>
      rw [← List.singleton_append, contents_append, messageBytes_append, fileBytes_append,
        List.length_append, List.length_append, List.length_append, ih]
      cases o with
      | message data => simp [contents, Output.content, Nat.add_assoc]
      | file filePath => simp [contents, Output.content, Nat.add_left_comm]
  have hlength : (contents disk (accepted trace)).length = (contents disk os).length :=
    (hperm.flatMap_right _).length_eq
  rw [hsplit, hwrote, hsent, hlength, hkinds]

namespace TcpLoop

variable {w w' : TcpLoop}

/-- A closed connection accepts nothing. -/
theorem Effect.accepted_of_closed {a : Action} {v : View} (h : Effect w a v)
    (hstate : w.conn.state = .kDisConnected) : accepted v.trace = accepted w.view.trace := by
  have hclosed {u : View} (hc : Closes u v) : v.trace = u.trace := by
    cases hc <;> rfl
  have hopen {P : Prop} (hs : w.conn.state ≠ .kDisConnected) : P := absurd hstate hs
  cases h with
  | flow htodo hflow =>
    cases hflow with
    | quiet => rfl
    | drain => exact accepted_concat .. |>.trans (List.append_nil _)
    | transfer => exact accepted_concat .. |>.trans (List.append_nil _)
    | close hu hc => rw [hclosed hc]
  | queueOutput hf hs => simp [hstate] at hs
  | accept ho hf htodo hs => exact hopen hs
  | disconnect hf hcloses hs => simp [hstate] at hs
  | close es hes hc =>
    rw [hclosed hc]
    rcases hes with rfl | ⟨o, rfl⟩
    · rw [List.append_nil]
    · exact accepted_concat .. |>.trans (List.append_nil _)
  | write hd tl htodo hs => exact hopen hs
  | append htodo hs => exact hopen hs
  | lose htodo hs => simp [hstate] at hs
  | openFile htodo hopened hs => exact hopen hs
  | shutdownWriting => exact accepted_concat .. |>.trans (List.append_nil _)
  | shutdown htodo hwriting hc =>
    rw [hclosed hc]
    exact accepted_concat .. |>.trans (List.append_nil _)
  | _ => rfl

/-- `shutdownWrite` was in the trace, or it is what the step has appended. -/
theorem Effect.shutdownWrite {a : Action} {v : View} (h : Effect w a v)
    (hshut : .shutdownWrite ∈ v.trace) :
    .shutdownWrite ∈ w.view.trace ∨ v.trace = w.view.trace ++ [.shutdownWrite] := by
  have hclosed {u u' : View} (hc : Closes u u') : u'.trace = u.trace := by
    cases hc <;> rfl
  cases h with
  | flow htodo hflow =>
    cases hflow with
    | quiet => exact .inl hshut
    | drain => exact .inl (by simpa using hshut)
    | transfer => exact .inl (by simpa using hshut)
    | close hu hc =>
      rw [hclosed hc] at hshut
      exact .inl hshut
  | queueOutput => exact .inl (by simpa using hshut)
  | accept => exact .inl (by simpa using hshut)
  | disconnect hf hcloses hs hes => rcases hes with rfl | rfl <;> exact .inl (by simpa using hshut)
  | close es hes hc =>
    rw [hclosed hc] at hshut
    rcases hes with rfl | ⟨o, rfl⟩ <;> exact .inl (by simpa using hshut)
  | write => exact .inl (by simpa using hshut)
  | append => exact .inl (by simpa using hshut)
  | lose => exact .inl (by simpa using hshut)
  | openFile => exact .inl (by simpa using hshut)
  | shutdownWriting => exact .inr rfl
  | shutdown htodo hwriting hc => exact .inr (hclosed hc)
  | _ => exact .inl hshut

/-- A connection that sends in order, shuts down gracefully, and has handed over everything by
then. -/
structure Delivered (w : TcpLoop) : Prop where
  sound : w.view.Sound
  ordered : w.view.Ordered
  balanced : w.view.closed ∨ w.view.Balanced
  booked : w.view.Booked
  complete : .shutdownWrite ∈ w.trace → handed w.trace = contents w.disk (accepted w.trace)

/-- A new connection has nothing to deliver. -/
theorem delivered_start (fd : Nat) (callbacks : Callback → Bool) (disk : Bytes → Bytes) :
    (start fd callbacks disk).Delivered where
  sound := sound_start fd callbacks disk
  ordered := ordered_start fd callbacks disk
  balanced := .inr (balanced_start fd callbacks disk)
  booked := booked_start fd callbacks disk
  complete := nofun

/-- A step of the sender keeps the account. -/
theorem Delivered.step (h : w.Delivered) {a : Action} (hg : Peers.Delivers w a)
    (hstep : w.step a = some w') : w'.Delivered := by
  have he := effect_of_step h.sound.sized hstep
  have hlive := aborted_of_step hstep
  have hordered := ordered_effect h.ordered h.sound hlive hg.inOrder he
  have hbooked := booked_effect h.booked h.balanced hlive hg.drains he
  refine ⟨sound_effect h.sound he, hordered, ?_, hbooked, fun hshut => ?_⟩
  · rcases h.balanced with hclosed | hbalanced
    · exact .inl (.inl (he.forward.1 (hclosed.resolve_right (by simp [hlive]))))
    · exact balanced_effect hbalanced h.sound hg.drains he
  · have hprefix := handed_prefix hordered
    have hhanded : handed w'.view.trace = handed w'.trace := handed_filter _
    have haccepted : accepted w'.view.trace = accepted w'.trace := accepted_filter _
    refine hprefix.eq_of_length ?_
    rcases he.shutdownWrite (List.mem_filter.mpr ⟨hshut, rfl⟩) with hbefore | hlast
    · -- everything had been handed over before, and nothing has been accepted since
      have hmem : .shutdownWrite ∈ w.trace := (List.mem_filter.mp hbefore).1
      have hsame : accepted w'.trace = accepted w.trace := haccepted.symm.trans
        ((he.accepted_of_closed (h.booked.disconnected hbefore)).trans (accepted_filter _))
      obtain ⟨-, es, htrace, -⟩ := stream_of_step hstep
      have hgrows : (handed w.trace).length ≤ (handed w'.trace).length := by
        rw [htrace, handed_append, List.length_append]
        exact Nat.le_add_right _ _
      have hdisk : w'.disk = w.disk := he.disk
      rw [h.complete hmem, ← hdisk, ← hsame] at hgrows
      exact Nat.le_antisymm hprefix.length_le hgrows
    · have hdrained : Drained w'.disk w.view.trace :=
        hbooked.drained _ _ [] (by rw [hlast]) rfl
      have hlength := hdrained.length_handed
      change _ = (contents w'.disk _).length
      rw [← hhanded, ← haccepted, hlast, handed_concat, accepted_concat]
      simpa [Event.wroteBytes, Event.sentBytes, Event.accepted?] using hlength

end TcpLoop

namespace Peers

variable {fd : Side → Nat} {callbacks : Side → Callback → Bool} {disk : Side → Bytes → Bytes}
  {d : Duplex Peer UInt8} {as : List (Side × PeerAction)}

/-- When one side has read the end of the stream of a connection that was shut down gracefully, it
has read every byte that was ever accepted there, in order. -/
theorem delivered_of_run {s : Side}
    (h : Run (Duplex.step Peer.endpoint) (Obeys s.other Delivers) (start fd callbacks disk) as d)
    (hend : d.sawEnd s = true) (hshut : .shutdownWrite ∈ (d.peer s.other).loop.trace) :
    (d.peer s).retrieved ++ (d.peer s).loop.input =
      contents (disk s.other) (accepted (d.peer s.other).loop.trace) := by
  have hread := read_of_run h s
  have hconserved := Duplex.streams_of_run h Peer.lawful fun _ => rfl
  rw [(hconserved.finished s hend).1, List.append_nil] at hread
  obtain ⟨hdelivered, hdisk⟩ := invariant_of_run
    (I := fun w => w.Delivered ∧ w.disk = disk s.other) h ⟨TcpLoop.delivered_start .., rfl⟩ (by
      rintro w a w' ⟨hw, hdisk⟩ hg hstep
      have he := TcpLoop.effect_of_step hw.sound.sized hstep
      exact ⟨hw.step hg hstep, he.disk.trans hdisk⟩)
  rw [hread, hdelivered.complete hshut, hdisk]

/-- A message is sent, and the connection is shut down; the other side reads two bytes, the third
one, and the end. -/
def untilTheEnd : List (Side × PeerAction) :=
  loops .near (TcpLoop.establishing ++
    [.call (.send [1, 2, 3]), .run { timer := 2, write := .done 9 }, .ret, .call .shutdown,
      .run { timer := 2 }]) ++
  loops .far (TcpLoop.establishing ++ [.ret] ++ TcpLoop.readable 2 (.done [1, 2]) ++
    [.retrieve 1, .ret, .resume { timer := 1 }, .resume { timer := 1 }, .doPendingFuncs] ++
    TcpLoop.readable 1 (.done [3]) ++ [.retrieve 9, .ret, .resume { timer := 2 },
      .resume { timer := 2 }, .doPendingFuncs] ++ TcpLoop.readable 2 (.done []))

/-- The receiver sees the end of the stream, and has all three bytes. -/
theorem delivered_of_run_untilTheEnd :
    ∃ d, Run (Duplex.step Peer.endpoint) (Obeys .near Delivers)
        (start (fun _ => 7) (fun _ _ => true) fun _ => id) untilTheEnd d ∧
      d.sawEnd .far = true ∧ .shutdownWrite ∈ (d.peer .near).loop.trace ∧
      accepted (d.peer .near).loop.trace = [.message [1, 2, 3]] ∧
      (d.peer .far).retrieved ++ (d.peer .far).loop.input =
        contents id (accepted (d.peer .near).loop.trace) := by
  have hreplay : (replay (Duplex.step Peer.endpoint) (Obeys .near Delivers)
      (start (fun _ => 7) (fun _ _ => true) fun _ => id) untilTheEnd).map
        (fun d => (d.sawEnd .far, decide (.shutdownWrite ∈ (d.peer .near).loop.trace),
          accepted (d.peer .near).loop.trace)) = some (true, true, [.message [1, 2, 3]]) := by
    decide +kernel
  obtain ⟨d, hd, he⟩ := Option.map_eq_some_iff.mp hreplay
  obtain ⟨hend, he⟩ := Prod.mk.inj he
  obtain ⟨hshut, haccepted⟩ := Prod.mk.inj he
  have hshut := of_decide_eq_true hshut
  exact ⟨d, .of_replay hd, hend, hshut, haccepted,
    delivered_of_run (s := .far) (.of_replay hd) hend hshut⟩

end Peers

end ClearMoon.Tcp
