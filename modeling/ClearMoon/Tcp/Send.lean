import ClearMoon.Tcp.Interest
import ClearMoon.Tcp.Queues
import ClearMoon.Tcp.Shutdown

/-!
# Messages in order

In a run in which no other thread calls `send`, what `::write` has taken and what stands in
`writeBuffer_` are together the messages that were accepted. The channel watches for `EPOLLOUT`
exactly as long as there is something to write.
-/

namespace ClearMoon.Tcp

open ClearMoon.Net ClearMoon.Timer

/-! ## The queues -/

/-- The call that hands an output to the connection. -/
def Output.call : Output → ConnCall
  | .message data => .send data
  | .file filePath => .sendFile filePath

namespace View

/-- The outputs of the functors that the loop has not come to. -/
def queued (v : View) : List Output := outputs (v.func ++ v.pendingFunc)

variable {v v' v'' : View}

/-! ## Messages in line -/

/-- While the connection is open, what has been written, the buffer, and the message that the loop
thread is about to take are the accepted messages; no message is queued. -/
structure Fifo (v : View) : Prop where
  queued : ∀ data, .message data ∉ v.queued
  line : ¬v.closed → wrote v.trace ++ v.buffered ++ messageBytes (outputs v.todo.toList) =
    messageBytes (accepted v.trace)

/-- Outputs without a message have no message bytes. -/
theorem messageBytes_eq_nil {os : List Output} (h : ∀ data, .message data ∉ os) :
    messageBytes os = [] := by
  induction os with
  | nil => rfl
  | cons o os ih =>
    have hrest := ih fun data hd => h data (List.mem_cons_of_mem _ hd)
    cases o with
    | message data => exact absurd List.mem_cons_self (h data)
    | file filePath => exact hrest

/-- A closed connection without queued messages has nothing left to order. -/
theorem Fifo.ofClosed (hqueued : ∀ data, .message data ∉ v'.queued) (hclosed : v'.closed) :
    v'.Fifo :=
  ⟨hqueued, fun hopen => absurd hclosed hopen⟩

/-- Bytes that have been accepted have come to the end of the line. -/
theorem Fifo.extend (h : v.Fifo) (hqueued : ∀ data, .message data ∉ v'.queued) (bytes : Bytes)
    (hclosed : v.closed → v'.closed)
    (hline : wrote v'.trace ++ v'.buffered ++ messageBytes (outputs v'.todo.toList) =
      wrote v.trace ++ v.buffered ++ messageBytes (outputs v.todo.toList) ++ bytes)
    (haccepted : messageBytes (accepted v'.trace) = messageBytes (accepted v.trace) ++ bytes) :
    v'.Fifo := by
  refine ⟨hqueued, fun hopen => ?_⟩
  rw [hline, haccepted, h.line fun hc => hopen (hclosed hc)]

/-- The bytes stand in line as before. -/
theorem Fifo.same (h : v.Fifo) (hqueued : ∀ data, .message data ∉ v'.queued)
    (hclosed : v.closed → v'.closed)
    (hline : wrote v'.trace ++ v'.buffered = wrote v.trace ++ v.buffered)
    (haccepted : accepted v'.trace = accepted v.trace)
    (htodo : messageBytes (outputs v'.todo.toList) = messageBytes (outputs v.todo.toList)) :
    v'.Fifo := by
  refine h.extend hqueued [] hclosed ?_ ?_
  · rw [hline, htodo, List.append_nil]
  · rw [haccepted, List.append_nil]

/-- The message that the loop thread was about to take is in line. -/
theorem Fifo.take {f : Functor} {o : Output} (h : v.Fifo)
    (hqueued : ∀ data, .message data ∉ v'.queued) (htodo : v.todo = some f)
    (hf : f.output? = some o) (hclosed : v.closed → v'.closed)
    (hnone : outputs v'.todo.toList = [])
    (hline : wrote v'.trace ++ v'.buffered = wrote v.trace ++ v.buffered ++ messageBytes [o])
    (haccepted : accepted v'.trace = accepted v.trace) : v'.Fifo := by
  refine h.extend hqueued [] hclosed ?_ ?_
  · rw [hline, hnone, htodo, Option.toList_some, outputs_some hf, List.append_nil]
    simp [messageBytes]
  · rw [haccepted, List.append_nil]

/-- A flow moves bytes from the buffer to the kernel, or closes the connection. -/
theorem Fifo.flow (h : v.Fifo) (hqueued : ∀ data, .message data ∉ v'.queued) (hf : Flow v v') :
    v'.Fifo := by
  cases hf with
  | quiet => exact h
  | drain hbuffered hb =>
    refine h.same hqueued id ?_ ?_ rfl
    · rw [wrote_concat, hbuffered, List.append_assoc]
      rfl
    · simp [accepted_concat, Event.accepted?]
  | transfer hbuffered hunsent hb =>
    refine h.same hqueued id ?_ ?_ rfl
    · simp [wrote_concat, Event.wroteBytes]
    · simp [accepted_concat, Event.accepted?]
  | close hu hc => exact .ofClosed hqueued (TcpLoop.closed_of_closes hc)

/-! ## No file at all -/

/-- No file has been accepted. -/
structure FileFree (v : View) : Prop where
  coming : v.state ≠ .kDisConnected → ∀ filePath, .file filePath ∉ outputs v.todo.toList
  queued : ∀ filePath, .file filePath ∉ v.queued
  unsent : v.unsent = []
  sent : sentFile v.trace = []

/-- A connection without a file stays without one, when none is queued or sent. -/
theorem FileFree.step (h : v.FileFree) (hqueued : ∀ filePath, .file filePath ∉ v'.queued)
    (htodo : v'.state ≠ .kDisConnected → ∀ filePath, .file filePath ∉ outputs v'.todo.toList)
    (hunsent : v'.unsent = [] ∨ v'.unsent = v.unsent)
    (hsent : sentFile v'.trace = sentFile v.trace) : v'.FileFree where
  coming := htodo
  queued := hqueued
  unsent := hunsent.elim id fun he => he.trans h.unsent
  sent := hsent.trans h.sent

/-- A close opens no file. -/
theorem FileFree.closes {u : View} (h : v.FileFree)
    (hqueued : ∀ filePath, .file filePath ∉ v'.queued)
    (hc : Closes u v') (hstate : u.state = v.state) (htodo : u.todo = none ∨ u.todo = v.todo)
    (hunsent : u.unsent = [] ∨ u.unsent = v.unsent) (hsent : sentFile u.trace = sentFile v.trace) :
    v'.FileFree := by
  have hcoming : u.state ≠ .kDisConnected → ∀ filePath, .file filePath ∉ outputs u.todo.toList := by
    intro hopen filePath
    rcases htodo with hnone | hsame
    · rw [hnone]
      exact List.not_mem_nil
    · rw [hsame]
      exact h.coming (hstate ▸ hopen) filePath
  cases hc with
  | already hs => exact h.step hqueued hcoming hunsent hsent
  | closed hs => exact h.step hqueued (fun hopen => absurd rfl hopen) (.inl rfl) hsent
  | aborted hs => exact h.step hqueued hcoming hunsent hsent

/-- Nor does a passage of the output. -/
theorem FileFree.flow (h : v.FileFree) (hqueued : ∀ filePath, .file filePath ∉ v'.queued)
    (hf : Flow v v') : v'.FileFree := by
  cases hf with
  | quiet => exact h
  | drain hbuffered hb =>
    refine h.step hqueued h.coming (.inr rfl) ?_
    rw [sentFile_concat]
    exact List.append_nil _
  | transfer hbuffered hunsent hb =>
    rw [h.unsent] at hunsent
    obtain ⟨rfl, rfl⟩ := List.append_eq_nil_iff.mp hunsent.symm
    refine h.step hqueued h.coming (.inl rfl) ?_
    rw [sentFile_concat]
    exact List.append_nil _
  | close hu hc => exact h.closes hqueued hc rfl (.inr rfl) hu rfl

end View

namespace TcpLoop

variable {w w' : TcpLoop}

/-- An output that another thread queues is that of its call. -/
theorem call_of_functor {a : Action} {f : Functor} {o : Output} (ha : a.functor? = some f)
    (ho : f.output? = some o) : a = .callElsewhere o.call := by
  cases a with
  | callElsewhere c =>
    obtain rfl := Option.some.inj ha
    cases c with
    | send data =>
      obtain rfl := Option.some.inj ho
      rfl
    | sendFile filePath =>
      obtain rfl := Option.some.inj ho
      rfl
    | _ => contradiction
  | connectDestroyedElsewhere =>
    obtain rfl := Option.some.inj ha
    contradiction
  | runElsewhere =>
    obtain rfl := Option.some.inj ha
    contradiction
  | _ => contradiction

/-- A queued output was queued before, or is that of a call of another thread. -/
theorem queued_of_step {a : Action} {o : Output} (hsized : w.view.sized = true)
    (hstep : w.step a = some w') (ho : o ∈ w'.view.queued) :
    o ∈ w.view.queued ∨ a = .callElsewhere o.call := by
  obtain ⟨f, hf, hout⟩ := List.mem_filterMap.mp (show o ∈ outputs w'.queue from ho)
  rcases (queues_of_step hsized hstep).mem hf with hbefore | ha
  · exact .inl (List.mem_filterMap.mpr ⟨f, hbefore, hout⟩)
  · exact .inr (call_of_functor ha hout)

/-! ## Messages -/

/-- A step keeps messages in order, as long as other threads send none. -/
theorem fifo_effect {a : Action} {v : View} (h : w.view.Fifo)
    (hqueued : ∀ data, .message data ∉ v.queued) (he : Effect w a v) : v.Fifo := by
  cases he with
  | quiet => exact h
  | flow htodo hflow => exact h.flow hqueued hflow
  | start htodo hf =>
    rcases hf with hf | hstate
    · refine h.same hqueued id rfl rfl ?_
      rw [view_todo, outputs_neutral htodo, Option.toList_some, outputs_none hf]
      rfl
    · exact .ofClosed hqueued (.inl hstate)
  | @nextFunc f fs htodo hfunc =>
    refine h.same hqueued id rfl rfl ?_
    have hmessage : ∀ data, .message data ∉ outputs [f] := by
      intro data hd
      apply h.queued data
      rw [View.queued, view_func, hfunc, outputs_append]
      refine List.mem_append_left _ ?_
      rw [← List.singleton_append, outputs_append]
      exact List.mem_append_left _ hd
    rw [view_todo, htodo]
    exact View.messageBytes_eq_nil hmessage
  | doPendingFuncs hfunc => exact h.same hqueued id rfl rfl rfl
  | queue hf => exact h.same hqueued id rfl rfl rfl
  | @queueOutput a f o hf hstate =>
    refine h.extend hqueued (messageBytes [o]) id ?_ ?_
    · cases o with
      | message data =>
        refine absurd ?_ (hqueued data)
        rw [View.queued, ← List.append_assoc, outputs_append, outputs_some hf]
        simp
      | file filePath => simp [wrote_concat, Event.wroteBytes]
    · simp [accepted_concat, Event.accepted?]
  | @accept a f o ho hf htodo hstate hfile =>
    refine h.extend hqueued (messageBytes [o]) id ?_ ?_
    · rw [view_todo, outputs_neutral htodo, Option.toList_some, outputs_some hf]
      simp [wrote_concat, Event.wroteBytes, messageBytes]
    · simp [accepted_concat, Event.accepted?]
  | @disconnect a f es todo pendingFunc hf hcloses hstate hes hplace =>
    have hneutral : outputs todo.toList = outputs w.view.todo.toList := by
      rcases hplace with ⟨hnone, rfl, -⟩ | ⟨rfl, -⟩
      · rw [view_todo, hnone, Option.toList_some, outputs_none hf]
        rfl
      · rfl
    rcases hes with rfl | rfl
    · refine h.same hqueued ?_ ?_ ?_ (congrArg messageBytes hneutral)
      · rintro (hd | ha)
        · rcases hstate with hs | hs <;> simp [hs] at hd
        · exact .inr ha
      · simp
      · simp
    · refine h.same hqueued ?_ ?_ ?_ (congrArg messageBytes hneutral)
      · rintro (hd | ha)
        · rcases hstate with hs | hs <;> simp [hs] at hd
        · exact .inr ha
      · simp [wrote_concat, Event.wroteBytes]
      · simp [accepted_concat, Event.accepted?]
  | drop htodo hf hcloses =>
    rcases hf with hf | hstate
    · refine h.same hqueued id rfl rfl ?_
      rw [view_todo, htodo, Option.toList_some, outputs_none hf]
      rfl
    · exact .ofClosed hqueued (.inl hstate)
  | establish htodo hstate =>
    refine h.same hqueued ?_ rfl rfl ?_
    · rintro (hd | ha)
      · rw [view_state, hstate] at hd
        contradiction
      · exact .inr ha
    · rw [view_todo, htodo]
      rfl
  | abort htodo => exact .ofClosed hqueued (.inr rfl)
  | destroy htodo hstate => exact .ofClosed hqueued (.inl rfl)
  | close es hes hc => exact .ofClosed hqueued (closed_of_closes hc)
  | write hd tl htodo hstate hwriting hbuffered hnext =>
    refine h.take hqueued htodo rfl id ?_ ?_ ?_
    · rcases hnext with rfl | rfl <;> rfl
    · rw [wrote_concat, wrote_concat, hbuffered]
      simp [Event.wroteBytes]
    · rw [accepted_concat, accepted_concat]
      simp [Event.accepted?]
  | append htodo hstate hnext =>
    refine h.take hqueued htodo rfl id ?_ ?_ ?_
    · rcases hnext with rfl | rfl <;> rfl
    · simp [wrote_concat, Event.wroteBytes]
    · simp [accepted_concat, Event.accepted?]
  | lose htodo hstate =>
    refine h.take hqueued htodo rfl id rfl ?_ ?_
    · simp [wrote_concat, Event.wroteBytes]
    · simp [accepted_concat, Event.accepted?]
  | openFile htodo hopened hstate =>
    refine h.take hqueued htodo rfl id rfl ?_ ?_
    · simp [wrote_concat, Event.wroteBytes]
    · simp [accepted_concat, Event.accepted?]
  | shutdownWriting htodo hwriting =>
    refine h.same hqueued id ?_ ?_ ?_
    · simp [wrote_concat, Event.wroteBytes]
    · simp [accepted_concat, Event.accepted?]
    · rw [view_todo, htodo]
      rfl
  | shutdown htodo hwriting hc => exact .ofClosed hqueued (closed_of_closes hc)

/-! ## Runs without files -/

/-- The loop thread accepts a file when the user sends one. -/
theorem accepts_file {a : Action} {filePath : Bytes} (h : w.accepts a = some (.file filePath)) :
    a = .call (.sendFile filePath) := by
  cases a with
  | call c =>
    cases c with
    | sendFile path =>
      obtain ⟨-, h⟩ := Option.ite_none_right_eq_some.mp h
      cases h
      rfl
    | send data =>
      obtain ⟨-, h⟩ := Option.ite_none_right_eq_some.mp h
      cases h
    | _ => contradiction
  | run env =>
    simp only [accepts] at h
    split at h
    · obtain ⟨-, h⟩ := Option.ite_none_right_eq_some.mp h
      cases h
    · split at h
      · obtain ⟨-, h⟩ := Option.ite_none_right_eq_some.mp h
        cases h
      · contradiction
    · contradiction
  | _ => contradiction

/-- Where no file is sent all bytes are those of messages. -/
theorem handed_eq_wrote {trace : List Event} (h : sentFile trace = []) :
    handed trace = wrote trace := by
  induction trace with
  | nil => rfl
  | cons e trace ih =>
    rw [sentFile, List.flatMap_cons, List.append_eq_nil_iff] at h
    have hrest : handed trace = wrote trace := ih h.2
    rw [handed, List.flatMap_cons, h.1, List.append_nil, wrote, List.flatMap_cons]
    exact congrArg (e.wroteBytes ++ ·) hrest

/-- A step that asks for no file keeps the connection free of files. -/
theorem fileFree_effect {a : Action} {v : View} (h : w.view.FileFree)
    (ha : ∀ filePath, a ≠ .call (.sendFile filePath))
    (hqueued : ∀ filePath, .file filePath ∉ v.queued) (he : Effect w a v) : v.FileFree := by
  have hcoming {f : Functor} (hstate : w.conn.state ≠ .kDisConnected) (htodo : w.todo = some f)
      (filePath : Bytes) : f.output? ≠ some (.file filePath) := by
    intro hf
    apply h.coming hstate filePath
    rw [view_todo, htodo, Option.toList_some, outputs_some hf]
    exact List.mem_cons_self
  have hnone {f : Functor} (hf : ∀ filePath, f.output? ≠ some (.file filePath)) (filePath : Bytes) :
      .file filePath ∉ outputs (some f).toList := by
    intro hmem
    obtain ⟨g, hg, hout⟩ := List.mem_filterMap.mp hmem
    rw [List.mem_singleton.mp hg] at hout
    exact hf filePath hout
  have hneutral {f : Functor} (hf : f.output? = none) (filePath : Bytes) :
      f.output? ≠ some (.file filePath) := by simp [hf]
  have hnext {todo : Option Functor} (ht : todo = none ∨ todo = some .shutdownInLoop)
      (filePath : Bytes) : .file filePath ∉ outputs todo.toList := by
    rcases ht with rfl | rfl
    · exact List.not_mem_nil
    · exact hnone (hneutral rfl) filePath
  cases he with
  | quiet => exact h
  | flow htodo hf => exact h.flow hqueued hf
  | start htodo hf =>
    refine h.step hqueued (fun hopen => hnone ?_) (.inr rfl) rfl
    exact hneutral (hf.resolve_right hopen)
  | nextFunc htodo hfunc =>
    refine h.step hqueued (fun _ => hnone fun filePath hf => ?_) (.inr rfl) rfl
    apply h.queued filePath
    rw [View.queued, view_func, hfunc, List.cons_append, outputs_some hf]
    exact List.mem_cons_self
  | doPendingFuncs hfunc => exact h.step hqueued h.coming (.inr rfl) rfl
  | queue hf => exact h.step hqueued h.coming (.inr rfl) rfl
  | queueOutput hf hstate =>
    refine h.step hqueued h.coming (.inr rfl) ?_
    rw [sentFile_concat]
    exact List.append_nil _
  | @accept a f o ho hf htodo hstate hfile =>
    refine h.step hqueued (fun _ => hnone fun filePath hf' => ?_) (.inr rfl) ?_
    · rw [hf] at hf'
      rw [Option.some.inj hf'] at ho
      exact ha filePath (accepts_file ho)
    · rw [sentFile_concat]
      exact List.append_nil _
  | @disconnect a f es todo pendingFunc hf hcloses hstate hes hplace =>
    refine h.step hqueued (fun _ => ?_) (.inr rfl) ?_
    · rcases hplace with ⟨-, rfl, -⟩ | ⟨rfl, -⟩
      · exact hnone (hneutral hf)
      · apply h.coming
        rw [view_state]
        rcases hstate with hs | hs <;> simp [hs]
    · rcases hes with rfl | rfl
      · simp
      · simp [sentFile_concat, Event.sentBytes]
  | drop htodo hf hcloses => exact h.step hqueued (fun _ => hnext (.inl rfl)) (.inr rfl) rfl
  | establish htodo hstate => exact h.step hqueued (fun _ => hnext (.inl rfl)) (.inr rfl) rfl
  | abort htodo => exact h.step hqueued (fun _ => hnext (.inl rfl)) (.inr rfl) rfl
  | destroy htodo hstate => exact h.step hqueued (fun _ => hnext (.inl rfl)) (.inr rfl) rfl
  | close es hes hc =>
    refine h.closes hqueued hc rfl (.inl rfl) (.inr rfl) ?_
    rcases hes with rfl | ⟨o, rfl⟩
    · simp
    · simp [sentFile_concat, Event.sentBytes]
  | write hd tl htodo hstate hwriting hbuffered hnext' =>
    refine h.step hqueued (fun _ => hnext hnext') (.inr rfl) ?_
    rw [sentFile_concat, sentFile_concat]
    simp [Event.sentBytes]
  | append htodo hstate hnext' =>
    refine h.step hqueued (fun _ => hnext hnext') (.inr rfl) ?_
    simp [sentFile_concat, Event.sentBytes]
  | lose htodo hstate => exact absurd rfl (hcoming (by simp [hstate]) htodo _)
  | openFile htodo hopened hstate => exact absurd rfl (hcoming hstate htodo _)
  | shutdownWriting htodo hwriting =>
    refine h.step hqueued (fun _ => hnext (.inl rfl)) (.inr rfl) ?_
    simp [sentFile_concat, Event.sentBytes]
  | shutdown htodo hwriting hc =>
    refine h.closes hqueued hc rfl (.inl rfl) (.inr rfl) ?_
    simp [sentFile_concat, Event.sentBytes]

/-! ## Runs -/

/-- The connection is established, and has not been closed. -/
def IsOpen (w : TcpLoop) : Prop :=
  (w.conn.state = .kConnected ∨ w.conn.state = .kDisConnecting) ∧ w.aborted = false

/-- An open connection is not closed. -/
theorem IsOpen.not_closed (h : w.IsOpen) : ¬w.view.closed := by
  obtain ⟨hstate, hlive⟩ := h
  rcases hstate with hs | hs <;> simp [View.closed, hs, hlive]

/-- Messages keep their order in every run in which only the loop's own thread sends. -/
theorem fifo_of_run {fd : Nat} {callbacks : Callback → Bool} {disk : Bytes → Bytes}
    {as : List Action} (h : Run step anyStep (start fd callbacks disk) as w)
    (has : ∀ data, .callElsewhere (.send data) ∉ as) : w.view.Fifo := by
  have hrun := h.restrict (P := fun a => ∀ data, a ≠ .callElsewhere (.send data))
    fun a ha data he => has data (he ▸ ha)
  refine (hrun.invariant (I := fun w => w.view.Sound ∧ w.view.Fifo) ?_ ?_).2
  · refine ⟨sound_start fd callbacks disk, ⟨fun data => ?_, fun _ => rfl⟩⟩
    simp [View.queued, start, view, outputs, Functor.output?]
  · rintro w a w' ⟨hsound, hfifo⟩ ha hstep
    have he := effect_of_step hsound.sized hstep
    refine ⟨sound_effect hsound he, fifo_effect hfifo (fun data hdata => ?_) he⟩
    rcases queued_of_step hsound.sized hstep hdata with hbefore | hcall
    · exact hfifo.queued data hbefore
    · exact ha data hcall

/-- A run in which no file is asked for sends none. -/
theorem fileFree_of_run {fd : Nat} {callbacks : Callback → Bool} {disk : Bytes → Bytes}
    {as : List Action} (h : Run step anyStep (start fd callbacks disk) as w)
    (has : ∀ filePath, .call (.sendFile filePath) ∉ as ∧ .callElsewhere (.sendFile filePath) ∉ as) :
    w.view.FileFree := by
  have hrun := h.restrict (P := fun a => ∀ filePath, a ≠ .call (.sendFile filePath) ∧
    a ≠ .callElsewhere (.sendFile filePath))
    fun a ha filePath =>
      ⟨fun he => (has filePath).1 (he ▸ ha), fun he => (has filePath).2 (he ▸ ha)⟩
  refine (hrun.invariant (I := fun w => w.view.Sound ∧ w.view.FileFree) ?_ ?_).2
  · refine ⟨sound_start fd callbacks disk, ⟨fun _ filePath => ?_, fun filePath => ?_, rfl, rfl⟩⟩
    · exact List.not_mem_nil
    · simp [View.queued, start, view, outputs, Functor.output?]
  · rintro w a w' ⟨hsound, hfree⟩ ha hstep
    have he := effect_of_step hsound.sized hstep
    refine ⟨sound_effect hsound he, fileFree_effect hfree (fun p => (ha p).1) (fun p hp => ?_) he⟩
    rcases queued_of_step hsound.sized hstep hp with hbefore | hcall
    · exact hfree.queued p hbefore
    · exact (ha p).2 hcall

/-- While the connection is open, messages are in order as long as no other thread sends, and the
channel watches for `EPOLLOUT` exactly if there is something to write. -/
theorem send_of_run {fd : Nat} {callbacks : Callback → Bool} {disk : Bytes → Bytes}
    {as : List Action} (h : Run step anyStep (start fd callbacks disk) as w) (hopen : w.IsOpen) :
    ((∀ data, .callElsewhere (.send data) ∉ as) →
      wrote w.trace ++ w.conn.writeBuffer.readable ++ messageBytes (outputs w.todo.toList) =
        messageBytes (accepted w.trace) ∧
      ((∀ filePath, .call (.sendFile filePath) ∉ as ∧ .callElsewhere (.sendFile filePath) ∉ as) →
        handed w.trace = wrote w.trace)) ∧
    (w.conn.channel.isWriting = true ↔
      w.conn.writeBuffer.readable ≠ [] ∨ w.conn.sendingFile = true) ∧
    (w.conn.channel.index = .kAdded →
      w.poller.interest[w.conn.channel.fd]? = some (w.conn.channel.events, .conn)) ∧
    (w.conn.state = .kConnected → w.conn.channel.index = .kAdded) := by
  obtain ⟨hstate, hlive⟩ := hopen
  have hnot : w.conn.state ≠ .kDisConnected := by rcases hstate with hs | hs <;> simp [hs]
  have hapt := apt_of_run h
  refine ⟨fun hsends => ⟨?_, fun hfiles => ?_⟩, hapt.interest hnot hlive,
    fun hindex => (hapt.agrees.registered hindex).2, hapt.registered⟩
  · have hline := (fifo_of_run h hsends).line (by simp [View.closed, hnot, hlive])
    rw [← wrote_filter, ← accepted_filter]
    exact hline
  · apply handed_eq_wrote
    rw [← sentFile_filter]
    exact (fileFree_of_run h hfiles).sent

/-- A message is written in two parts, and another one is sent in the write-complete callback. -/
def sendWhenWritten : List Action :=
  establishing ++ [.call (.send [1, 2]), .run { timer := 2, write := .done 1 }, .ret] ++
  writeable 2 (.done 9) .again ++ [.call (.send [3, 4]), .run { timer := 1, write := .done 1 }]

/-- A message is sent in `writeCompleteCallback_`, and the kernel takes it in two parts. -/
theorem send_of_run_sendWhenWritten :
    ∃ w, Run step anyStep (start 7 (fun _ => true) id) sendWhenWritten w ∧
      handed w.trace = [1, 2, 3] ∧
      wrote w.trace ++ w.conn.writeBuffer.readable ++ messageBytes (outputs w.todo.toList) =
        messageBytes (accepted w.trace) ∧
      (w.conn.channel.isWriting = true ↔
        w.conn.writeBuffer.readable ≠ [] ∨ w.conn.sendingFile = true) := by
  have hreplay : (replay step anyStep (start 7 (fun _ => true) id) sendWhenWritten).map
      (fun w => (handed w.trace, w.conn.state, w.aborted)) =
        some ([1, 2, 3], .kConnected, false) := by
    decide +kernel
  obtain ⟨w, hw, he⟩ := Option.map_eq_some_iff.mp hreplay
  obtain ⟨hhanded, hrest⟩ := Prod.mk.inj he
  obtain ⟨hstate, hlive⟩ := Prod.mk.inj hrest
  have hsends : ∀ data, .callElsewhere (.send data) ∉ sendWhenWritten := by
    simp [sendWhenWritten, establishing, writeable]
  have hsend := send_of_run (.of_replay hw) ⟨.inl hstate, hlive⟩
  exact ⟨w, .of_replay hw, hhanded, (hsend.1 hsends).1, hsend.2.1⟩

end TcpLoop

end ClearMoon.Tcp
