import ClearMoon.Tcp.Effect

/-!
# The order of the output

Messages go through `writeBuffer_` and files through `fileFd_`, and `handleWrite` drains the buffer
first. The bytes handed to the kernel follow the order of the calls as long as no output is taken
into the loop behind a file that has not been sent completely, and no output of the loop thread
overtakes one that another thread has queued.
-/

namespace ClearMoon.Tcp

open ClearMoon.Net ClearMoon.Timer

/-- The bytes asked for are read off the outputs piece by piece. -/
theorem contents_append (disk : Bytes → Bytes) (os ps : List Output) :
    contents disk (os ++ ps) = contents disk os ++ contents disk ps := List.flatMap_append

namespace View

/-- The bytes that have been handed over or taken into the loop, in the order in which the kernel
gets them. -/
def line (v : View) : Bytes := handed v.trace ++ v.buffered ++ v.unsent

/-- The accepted bytes are in line, and the rest of them is coming. -/
structure Ordered (v : View) : Prop where
  opened : ¬v.closed → contents v.disk (accepted v.trace) = v.line ++ contents v.disk v.coming
  closed_prefix : v.closed → v.line <+: contents v.disk (accepted v.trace)

/-- What was handed over, with what waits in the buffer, is the first part of what was accepted. -/
theorem Ordered.line_prefix {v : View} (h : v.Ordered) :
    v.line <+: contents v.disk (accepted v.trace) := by
  by_cases hclosed : v.closed
  · exact h.closed_prefix hclosed
  · rw [h.opened hclosed]
    exact List.prefix_append _ _

/-- A step that moves bytes along the line keeps the order. -/
theorem Ordered.same {v v' : View} (h : v.Ordered) (hclosed : v'.closed ↔ v.closed)
    (hdisk : v'.disk = v.disk) (haccepted : accepted v'.trace = accepted v.trace)
    (hline : v'.line = v.line) (hcoming : v'.coming = v.coming) : v'.Ordered where
  opened hopen := by
    rw [hdisk, haccepted, hline, hcoming]
    exact h.opened (hclosed.not.mp hopen)
  closed_prefix hc := by
    rw [hdisk, haccepted, hline]
    exact h.closed_prefix (hclosed.mp hc)

/-- A step of an open connection that puts bytes into the line which were to come next, and new
outputs behind everything else, keeps the order. -/
theorem Ordered.extend {v v' : View} (h : v.Ordered) (os : List Output) (hopen : ¬v.closed)
    (hclosed : v'.closed → v.closed) (hdisk : v'.disk = v.disk)
    (haccepted : accepted v'.trace = accepted v.trace ++ os)
    (hline : v'.line ++ contents v.disk v'.coming =
      v.line ++ contents v.disk v.coming ++ contents v.disk os) : v'.Ordered where
  opened _ := by
    rw [hdisk, haccepted, hline, ← h.opened hopen, contents_append]
  closed_prefix hc := absurd (hclosed hc) hopen

/-- A step that takes the next output into the line keeps the order. -/
theorem Ordered.take {v v' : View} (h : v.Ordered) {f : Functor} {o : Output}
    (htodo : v.todo = some f) (hf : f.output? = some o) (hopen : ¬v.closed)
    (hclosed : v'.closed → v.closed) (hdisk : v'.disk = v.disk)
    (hnone : outputs v'.todo.toList = []) (hfunc : v'.func = v.func)
    (hpendingFunc : v'.pendingFunc = v.pendingFunc)
    (haccepted : accepted v'.trace = accepted v.trace)
    (hline : v'.line = v.line ++ o.content v.disk) : v'.Ordered := by
  have hcoming : v.coming = o :: v'.coming := coming_take htodo hf hnone hfunc hpendingFunc
  refine h.extend [] hopen hclosed hdisk ?_ ?_
  · rw [haccepted, List.append_nil]
  · simp [hline, hcoming, contents]

/-- `u` is `v`, apart from a file that may have been dropped and from what is still to come. -/
structure Trims (v u : View) : Prop where
  disk : u.disk = v.disk
  buffered : u.buffered = v.buffered
  unsent : u.unsent = [] ∨ u.unsent = v.unsent
  accepted : accepted u.trace = accepted v.trace
  handed : handed u.trace = handed v.trace

/-- A connection that is closed keeps the order, whatever it has lost. -/
theorem Ordered.trims {v u : View} (h : v.Ordered) (ht : Trims v u) (hclosed : u.closed) :
    u.Ordered where
  opened hopen := absurd hclosed hopen
  closed_prefix _ := by
    rw [line, ht.accepted, ht.handed, ht.disk, ht.buffered]
    refine List.IsPrefix.trans ?_ h.line_prefix
    rw [line]
    rcases ht.unsent with hu | hu
    · rw [hu, List.append_nil]
      exact List.prefix_append _ _
    · rw [hu]

/-- What the loop thread was to run next is discarded. -/
theorem Trims.discard (v : View) : Trims v { v with todo := none } :=
  ⟨rfl, rfl, .inr rfl, rfl, rfl⟩

/-- An event that neither accepts nor hands over anything. -/
theorem Trims.note {v u : View} (h : Trims v u) {e : Event} (haccepted : e.accepted? = none)
    (hwrote : e.wroteBytes = []) (hsent : e.sentBytes = []) :
    Trims v { u with trace := u.trace ++ [e] } :=
  { h with
    accepted := by simp [accepted_concat, haccepted, h.accepted]
    handed := by simp [handed_concat, hwrote, hsent, h.handed] }

/-- A close keeps the order, for nothing is handed over behind it. -/
theorem Ordered.closes {v u v' : View} (h : v.Ordered) (ht : Trims v u) (hc : Closes u v') :
    v'.Ordered := by
  cases hc with
  | already hstate => exact h.trims ht (.inl hstate)
  | closed hstate => exact h.trims { ht with unsent := .inl rfl } (.inl rfl)
  | aborted hstate => exact h.trims { ht with } (.inr rfl)

/-- So does every passage of the output. -/
theorem Ordered.flow {v v' : View} (h : v.Ordered) (hf : Flow v v') : v'.Ordered := by
  cases hf with
  | quiet => exact h
  | drain hbuffered hb =>
    refine h.same Iff.rfl rfl ?_ ?_ rfl
    · simp [accepted_concat, Event.accepted?]
    · simp [line, handed_concat, Event.wroteBytes, Event.sentBytes, hbuffered]
  | transfer hbuffered hunsent hb =>
    refine h.same Iff.rfl rfl ?_ ?_ rfl
    · simp [accepted_concat, Event.accepted?]
    · simp [line, handed_concat, Event.wroteBytes, Event.sentBytes, hbuffered, hunsent]
  | close hu hc =>
    refine h.closes ?_ hc
    exact ⟨rfl, rfl, hu, rfl, rfl⟩

end View

namespace TcpLoop

/-- The step takes bytes of a message into the loop. -/
def takesMessage (w : TcpLoop) : Action → Bool
  | .run _ =>
    match w.todo with
    | some (.sendInLoop data) => data ≠ [] ∧ w.conn.state ≠ .kDisConnected
    | _ => false
  | _ => false

/-- The step opens a file to be sent. -/
def opensFile (w : TcpLoop) : Action → Bool
  | .run env =>
    match w.todo, env.opened with
    | some (.sendFileInLoop _), .opened _ => w.conn.state ≠ .kDisConnected
    | _, _ => false
  | _ => false

/-- The condition for the order of the output to be kept: nothing is taken behind a file with
unsent bytes, and the loop thread accepts nothing behind a queued output. -/
structure InOrder (w : TcpLoop) (a : Action) : Prop where
  behindFile : w.takesMessage a = true ∨ w.opensFile a = true → w.unsent = []
  behindQueue : (w.accepts a).isSome = true → outputs (w.func ++ w.pendingFunc) = []

instance (w : TcpLoop) (a : Action) : Decidable (w.InOrder a) :=
  decidable_of_iff ((w.takesMessage a = true ∨ w.opensFile a = true → w.unsent = []) ∧
      ((w.accepts a).isSome = true → outputs (w.func ++ w.pendingFunc) = []))
    ⟨fun h => ⟨h.1, h.2⟩, fun h => ⟨h.behindFile, h.behindQueue⟩⟩

variable {w : TcpLoop}

/-- A step that meets the condition keeps the order. -/
theorem ordered_effect {a : Action} {v : View} (h : w.view.Ordered) (hsound : w.view.Sound)
    (hlive : w.aborted = false) (hg : w.InOrder a) (he : Effect w a v) : v.Ordered := by
  have hopen : w.conn.state ≠ .kDisConnected → ¬w.view.closed := by
    simp [View.closed, hlive]
  have hcoming := coming_view w
  have hbehind : ∀ {env data}, InOrder w (.run env) → w.todo = some (.sendInLoop data) →
      w.conn.state ≠ .kDisConnected → data = [] ∨ w.unsent = [] := by
    intro env data hg htodo hstate
    refine or_iff_not_imp_left.mpr fun hdata => hg.behindFile (.inl ?_)
    simp only [takesMessage, htodo]
    exact decide_eq_true ⟨hdata, hstate⟩
  cases he with
  | quiet => exact h
  | flow htodo hflow => exact h.flow hflow
  | start htodo hf =>
    rcases hf with hf | hstate
    · refine h.same Iff.rfl rfl rfl rfl ?_
      rw [hcoming, outputs_neutral htodo]
      simp [View.coming, View.functors, outputs_none hf, outputs_append]
    · exact h.trims ⟨rfl, rfl, .inr rfl, rfl, rfl⟩ (.inl hstate)
  | nextFunc htodo hfunc =>
    refine h.same Iff.rfl rfl rfl rfl ?_
    simp [View.coming, View.functors, htodo, hfunc]
  | doPendingFuncs hfunc =>
    refine h.same Iff.rfl rfl rfl rfl ?_
    simp [View.coming, View.functors, hfunc]
  | queue hf =>
    refine h.same Iff.rfl rfl rfl rfl ?_
    simp [View.coming, View.functors, outputs_append, outputs_none hf]
  | queueOutput hf hstate =>
    rename_i f o
    refine h.extend [o] (hopen (by simp [hstate])) id rfl (accepted_concat _ _) ?_
    simp [View.coming, View.functors, outputs_append, outputs_some hf, View.line, handed_concat,
      Event.wroteBytes, Event.sentBytes, contents_append]
  | accept ho hf htodo hstate hfile =>
    rename_i f o
    have hqueue : outputs w.func ++ outputs w.pendingFunc = [] := by
      rw [← outputs_append]
      exact hg.behindQueue (by rw [ho]; rfl)
    rw [outputs_neutral htodo, hqueue] at hcoming
    have hnext : ({ w.view with
        todo := some f
        trace := w.view.trace ++ [.accepted o] } : View).coming = [o] := by
      simp [View.coming, View.functors, outputs_append, outputs_some hf, hqueue]
    refine h.extend [o] (hopen hstate) id rfl (accepted_concat _ _) ?_
    rw [hnext, hcoming]
    simp [View.line, handed_concat, Event.wroteBytes, Event.sentBytes, contents]
  | disconnect hf hcloses hstate hes hplace =>
    have htrace : ∀ es, es = [] ∨ es = [.shutdown] →
        accepted (w.view.trace ++ es) = accepted w.view.trace ∧
          handed (w.view.trace ++ es) = handed w.view.trace := by
      rintro es (rfl | rfl)
      · simp
      · simp [accepted_concat, handed_concat, Event.accepted?, Event.wroteBytes, Event.sentBytes]
    refine h.same ?_ rfl (htrace _ hes).1 ?_ ?_
    · rcases hstate with hstate | hstate <;> simp [View.closed, hstate]
    · rw [View.line, (htrace _ hes).2]
      rfl
    · rcases hplace with ⟨htodo, rfl, rfl⟩ | ⟨rfl, rfl⟩
      · simp [View.coming, View.functors, outputs_append, outputs_none hf, htodo]
      · simp [View.coming, View.functors, outputs_append, outputs_none hf]
  | drop htodo hf hcloses =>
    rcases hf with hf | hstate
    · refine h.same Iff.rfl rfl rfl rfl ?_
      rw [hcoming, htodo]
      simp [View.coming, View.functors, outputs_append, outputs_none hf]
    · exact h.trims (.discard _) (.inl hstate)
  | establish htodo hstate =>
    refine h.same ?_ rfl rfl rfl ?_
    · simp [View.closed, hstate]
    · rw [hcoming, htodo]
      simp [View.coming, View.functors, outputs_append,
        outputs_none (f := .connectEstablelished) rfl]
  | abort htodo => exact h.trims { View.Trims.discard w.view with } (.inr rfl)
  | destroy htodo hstate => exact h.trims { View.Trims.discard w.view with } (.inl rfl)
  | close es hes hc =>
    rcases hes with rfl | ⟨o, rfl⟩
    · rw [List.append_nil] at hc
      exact h.closes (.discard _) hc
    · exact h.closes ((View.Trims.discard _).note rfl rfl rfl) hc
  | write hd tl htodo hstate hwriting hbuffered hnext =>
    refine h.take htodo rfl (hopen hstate) id rfl ?_ rfl rfl ?_ ?_
    · rcases hnext with rfl | rfl <;> rfl
    · rw [accepted_concat, accepted_concat]
      simp [Event.accepted?]
    · rw [View.line, View.line, handed_concat, handed_concat, hbuffered]
      rcases hbehind hg htodo hstate with hdata | hunsent
      · obtain ⟨rfl, rfl⟩ := List.append_eq_nil_iff.mp hdata
        simp [Event.wroteBytes, Event.sentBytes, Output.content]
      · simp [Event.wroteBytes, Event.sentBytes, Output.content, hunsent]
  | append htodo hstate hnext =>
    refine h.take htodo rfl (hopen hstate) id rfl ?_ rfl rfl ?_ ?_
    · rcases hnext with rfl | rfl <;> rfl
    · simp [accepted_concat, Event.accepted?]
    · rw [View.line, View.line, handed_concat]
      rcases hbehind hg htodo hstate with rfl | hunsent
      · simp [Event.wroteBytes, Event.sentBytes, Output.content]
      · simp [Event.wroteBytes, Event.sentBytes, Output.content, hunsent]
  | lose htodo hstate =>
    rename_i env filePath
    refine absurd ?_ (hsound.fresh hstate filePath)
    rw [hcoming, htodo]
    simp [outputs_some (f := .sendFileInLoop filePath) rfl]
  | openFile htodo hopened hstate =>
    have hunsent : w.unsent = [] := by
      refine hg.behindFile (.inr ?_)
      simp only [opensFile, htodo, hopened]
      exact decide_eq_true hstate
    refine h.take htodo rfl (hopen hstate) id rfl rfl rfl rfl ?_ ?_
    · simp [accepted_concat, Event.accepted?]
    · rw [View.line, View.line, handed_concat]
      simp [Event.wroteBytes, Event.sentBytes, Output.content, hunsent]
  | shutdownWriting htodo hwriting =>
    refine h.same Iff.rfl rfl ?_ ?_ ?_
    · simp [accepted_concat, Event.accepted?]
    · simp [View.line, handed_concat, Event.wroteBytes, Event.sentBytes]
    · rw [hcoming, htodo]
      simp [View.coming, View.functors, outputs_append, outputs_none (f := .shutdownInLoop) rfl]
  | shutdown htodo hwriting hc => exact h.closes ((View.Trims.discard _).note rfl rfl rfl) hc

/-- A new connection has handed nothing over. -/
theorem ordered_start (fd : Nat) (callbacks : Callback → Bool) (disk : Bytes → Bytes) :
    (start fd callbacks disk).view.Ordered where
  opened _ := rfl
  closed_prefix hc := by simp [View.closed, start, view] at hc

/-- In every run that takes its output in order, the bytes handed to the kernel are a prefix of the
accepted messages and files, in call order. -/
theorem handed_prefix_of_run {fd : Nat} {callbacks : Callback → Bool} {disk : Bytes → Bytes}
    {as : List Action} (h : Run step InOrder (start fd callbacks disk) as w) :
    handed w.trace <+: contents disk (accepted w.trace) := by
  obtain ⟨-, hordered, hdisk⟩ := h.invariant
    (I := fun w => w.view.Sound ∧ w.view.Ordered ∧ w.disk = disk)
    ⟨sound_start fd callbacks disk, ordered_start fd callbacks disk, rfl⟩
    fun t a u ⟨hsound, hordered, hdisk⟩ hg hstep =>
      have he := effect_of_step hsound.sized hstep
      ⟨sound_effect hsound he, ordered_effect hordered hsound (aborted_of_step hstep) hg he,
        he.disk.trans hdisk⟩
  have hprefix := hordered.line_prefix
  rw [View.line, List.append_assoc, view_disk, hdisk] at hprefix
  rw [← handed_filter, ← accepted_filter]
  exact (List.prefix_append _ _).trans hprefix

/-- The connection is established, and its connection callback runs. -/
def establishing : List Action := [.poll [] {}, .doPendingFuncs, .nextFunc, .run {}]

/-- The socket has become writeable: the four tests of `handleEvent`, with their answers. -/
def writeable (timer : Addr) (write sendfile : IoResult) : List Action :=
  [.poll [.conn] { epollout := true }, .dispatch, .resume { timer }, .resume { timer },
    .resume { timer }, .resume { timer, write, sendfile }]

/-- A header, a file behind it, and another message when the file has been sent. -/
def headerAndFile : List Action :=
  establishing ++ [.call (.send [10, 11]), .run { timer := 2, write := .done 1 },
    .call (.sendFile [20, 21, 22]), .run { timer := 2, opened := .opened 5 }, .ret] ++
  writeable 2 (.done 9) .again ++
  [.ret, .resume { timer := 1, sendfile := .done 2 }, .doPendingFuncs] ++
  writeable 1 .again (.done 9) ++ [.call (.send [30]), .run { timer := 2, write := .done 1 }]

/-- A header, a file and a message behind it arrive in this order. -/
theorem handed_prefix_of_run_headerAndFile :
    ∃ w, Run step InOrder (start 7 (fun _ => true) id) headerAndFile w ∧
      handed w.trace = [10, 11, 20, 21, 22, 30] ∧
      handed w.trace <+: contents id (accepted w.trace) := by
  have htrace : (replay step InOrder (start 7 (fun _ => true) id) headerAndFile).map
      (handed ·.trace) = some [10, 11, 20, 21, 22, 30] := by
    decide +kernel
  obtain ⟨w, hw, hhanded⟩ := Option.map_eq_some_iff.mp htrace
  exact ⟨w, .of_replay hw, hhanded, handed_prefix_of_run (.of_replay hw)⟩

/-- A message is sent after a file, before the socket has become writeable. -/
def fileThenMessage : List Action :=
  establishing ++ [.call (.sendFile [20, 21, 22]), .run { timer := 2, opened := .opened 5 },
    .call (.send [30]), .run { timer := 2 }, .ret] ++ writeable 2 (.done 9) .again

/-- A second file is sent when one byte of the first has been sent. -/
def fileThenFile : List Action :=
  establishing ++ [.call (.sendFile [20, 21, 22]), .run { timer := 2, opened := .opened 5 },
    .ret] ++ writeable 2 .again (.done 1) ++
  [.doPendingFuncs, .runElsewhere, .poll [] {}, .doPendingFuncs, .nextFunc, .run { timer := 1 },
    .call (.sendFile [30]), .run { timer := 1, opened := .opened 6 }, .ret] ++
  writeable 1 .again (.done 9)

/-- The loop thread sends while a message of another thread is queued. -/
def queuedThenMessage : List Action :=
  establishing ++ [.callElsewhere (.send [10]), .call (.send [20]),
    .run { timer := 2, write := .done 1 }]

/-- In all three runs bytes are handed to the kernel out of order. -/
theorem handed_out_of_order :
    (∃ w, Run step anyStep (start 7 (fun _ => true) id) fileThenMessage w ∧
      ¬handed w.trace <+: contents id (accepted w.trace)) ∧
    (∃ w, Run step anyStep (start 7 (fun _ => true) id) fileThenFile w ∧
      ¬handed w.trace <+: contents id (accepted w.trace)) ∧
    ∃ w, Run step anyStep (start 7 (fun _ => true) id) queuedThenMessage w ∧
      ¬handed w.trace <+: contents id (accepted w.trace) := by
  have hrun : ∀ (as : List Action) (bytes : Bytes) (os : List Output),
      (replay step anyStep (start 7 (fun _ => true) id) as).map
        (fun w => (handed w.trace, accepted w.trace)) = some (bytes, os) →
      ¬bytes <+: contents id os →
      ∃ w, Run step anyStep (start 7 (fun _ => true) id) as w ∧
        ¬handed w.trace <+: contents id (accepted w.trace) := by
    intro as bytes os htrace hbytes
    obtain ⟨w, hw, he⟩ := Option.map_eq_some_iff.mp htrace
    obtain ⟨rfl, rfl⟩ := Prod.mk.inj he
    exact ⟨w, .of_replay hw, hbytes⟩
  refine ⟨?_, ?_, ?_⟩
  · exact hrun _ [30] [.file [20, 21, 22], .message [30]] (by decide +kernel) (by decide)
  · exact hrun _ [20, 30] [.file [20, 21, 22], .file [30]] (by decide +kernel) (by decide)
  · exact hrun _ [20] [.message [10], .message [20]] (by decide +kernel) (by decide)

end TcpLoop

end ClearMoon.Tcp
