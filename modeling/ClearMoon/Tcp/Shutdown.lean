import ClearMoon.Core.Log
import ClearMoon.Tcp.Output

/-!
# Graceful shutdown

`shutdownInLoop` shuts the write side of the socket down at once, whether output is pending or not.
Nothing is lost when it runs with the channel not writing and no output queued; then it closes the
connection in the same step.
-/

namespace ClearMoon.Tcp

open ClearMoon.Net ClearMoon.Timer

/-! ## The property -/

/-- The bytes of the messages among the outputs. -/
def messageBytes (os : List Output) : Bytes :=
  os.flatMap fun
    | .message data => data
    | .file _ => []

/-- The bytes of the files among the outputs. -/
def fileBytes (disk : Bytes → Bytes) (os : List Output) : Bytes :=
  os.flatMap fun
    | .message _ => []
    | .file filePath => disk filePath

/-- Every byte of every accepted output has been handed to the kernel, exactly once: the messages
by `::write` and the files by `::sendfile`, in some order of the outputs. -/
def Drained (disk : Bytes → Bytes) (trace : List Event) : Prop :=
  ∃ os, (accepted trace).Perm os ∧ wrote trace = messageBytes os ∧
    sentFile trace = fileBytes disk os

/-- Before each `shutdownWrite`, all that had been accepted was handed to the kernel. -/
def ShutdownDrained (disk : Bytes → Bytes) : List Event → Prop :=
  AtEvery fun before e => e = .shutdownWrite → Drained disk before

/-- Events that belong to a shutdown. -/
def Event.ofShutdown : Event → Bool
  | .shutdown | .shutdownWrite => true
  | _ => false

/-- An event may be added that is no shutdown, or one behind which nothing is left. -/
theorem shutdownDrained_concat {disk : Bytes → Bytes} {trace : List Event} {e : Event}
    (h : ShutdownDrained disk trace) (he : e = .shutdownWrite → Drained disk trace) :
    ShutdownDrained disk (trace ++ [e]) := AtEvery.concat h he

/-- What is drained is read off the outputs alone. -/
theorem drained_filter {disk : Bytes → Bytes} {trace : List Event} :
    Drained disk (trace.filter Event.isOutput) ↔ Drained disk trace := by
  rw [Drained, Drained, accepted_filter, wrote_filter, sentFile_filter]

/-- So is a shutdown behind them. -/
theorem shutdownDrained_of_filter {disk : Bytes → Bytes} {trace : List Event}
    (h : ShutdownDrained disk (trace.filter Event.isOutput)) : ShutdownDrained disk trace := by
  refine AtEvery.of_filter h fun before e hp he => drained_filter.mp (hp ?_ he)
  rw [he]
  rfl

/-- Message bytes are read off the outputs piece by piece. -/
@[simp] theorem messageBytes_append (os ps : List Output) :
    messageBytes (os ++ ps) = messageBytes os ++ messageBytes ps := List.flatMap_append

/-- So are the bytes of files. -/
@[simp] theorem fileBytes_append (disk : Bytes → Bytes) (os ps : List Output) :
    fileBytes disk (os ++ ps) = fileBytes disk os ++ fileBytes disk ps := List.flatMap_append

@[simp] theorem messageBytes_message (data : Bytes) : messageBytes [.message data] = data :=
  List.append_nil _

@[simp] theorem messageBytes_file (filePath : Bytes) : messageBytes [.file filePath] = [] := rfl

@[simp] theorem fileBytes_message (disk : Bytes → Bytes) (data : Bytes) :
    fileBytes disk [.message data] = [] := rfl

@[simp] theorem fileBytes_file (disk : Bytes → Bytes) (filePath : Bytes) :
    fileBytes disk [.file filePath] = disk filePath := List.append_nil _

namespace View

/-! ## The books of an open connection -/

/-- While the connection is open, every accepted byte has been handed over, is in the buffer or
the file, or is to be taken into the loop; and the channel is writing unless nothing is left. -/
structure Balanced (v : View) : Prop where
  messages : messageBytes (taken v.trace) = wrote v.trace ++ v.buffered
  files : fileBytes v.disk (taken v.trace) = sentFile v.trace ++ v.unsent
  accepted : (accepted v.trace).Perm (taken v.trace ++ v.coming)
  idle : v.writing = false → v.buffered = [] ∧ v.unsent = []

/-- A balanced connection with nothing to write and nothing to come has handed all over. -/
theorem Balanced.drained {v : View} (h : v.Balanced) (hwriting : v.writing = false)
    (hcoming : v.coming = []) : Drained v.disk v.trace := by
  obtain ⟨hbuffered, hunsent⟩ := h.idle hwriting
  refine ⟨taken v.trace, ?_, ?_, ?_⟩
  · simpa [hcoming] using h.accepted
  · simp [h.messages, hbuffered]
  · simp [h.files, hunsent]

/-- An event that is no output leaves the books as they are, and so does a step that only moves
functors. -/
theorem Balanced.same {v v' : View} (h : v.Balanced) (hdisk : v'.disk = v.disk)
    (htaken : taken v'.trace = taken v.trace) (hwrote : wrote v'.trace = wrote v.trace)
    (hsent : sentFile v'.trace = sentFile v.trace)
    (haccepted : Tcp.accepted v'.trace = Tcp.accepted v.trace) (hwriting : v'.writing = v.writing)
    (hbuffered : v'.buffered = v.buffered) (hunsent : v'.unsent = v.unsent)
    (hcoming : v'.coming = v.coming) : v'.Balanced where
  messages := by rw [htaken, hwrote, hbuffered, h.messages]
  files := by rw [hdisk, htaken, hsent, hunsent, h.files]
  accepted := by
    rw [haccepted, htaken, hcoming]
    exact h.accepted
  idle := by
    rw [hwriting, hbuffered, hunsent]
    exact h.idle

/-- A step that takes the next output into the loop. -/
theorem Balanced.take {v v' : View} (h : v.Balanced) {f : Functor} {o : Output}
    (htodo : v.todo = some f) (hf : f.output? = some o) (hdisk : v'.disk = v.disk)
    (hnone : outputs v'.todo.toList = []) (hfunc : v'.func = v.func)
    (hpendingFunc : v'.pendingFunc = v.pendingFunc)
    (htaken : taken v'.trace = taken v.trace ++ [o])
    (haccepted : Tcp.accepted v'.trace = Tcp.accepted v.trace)
    (hmessages : wrote v'.trace ++ v'.buffered = wrote v.trace ++ v.buffered ++ messageBytes [o])
    (hfiles : sentFile v'.trace ++ v'.unsent =
      sentFile v.trace ++ v.unsent ++ fileBytes v.disk [o])
    (hidle : v'.writing = false → v'.buffered = [] ∧ v'.unsent = []) : v'.Balanced where
  messages := by rw [htaken, hmessages, messageBytes_append, h.messages]
  files := by rw [hdisk, htaken, hfiles, fileBytes_append, h.files]
  accepted := by
    rw [haccepted, htaken, List.append_assoc, List.singleton_append,
      ← coming_take htodo hf hnone hfunc hpendingFunc]
    exact h.accepted
  idle := hidle

/-- A step that accepts an output which is then to come. -/
theorem Balanced.accept {v v' : View} (h : v.Balanced) (o : Output) (hdisk : v'.disk = v.disk)
    (htrace : v'.trace = v.trace ++ [.accepted o]) (hwriting : v'.writing = v.writing)
    (hbuffered : v'.buffered = v.buffered) (hunsent : v'.unsent = v.unsent)
    (hcoming : v'.coming.Perm (o :: v.coming)) : v'.Balanced where
  messages := by
    rw [htrace, taken_concat, wrote_concat, hbuffered]
    simp [Event.taken?, Event.wroteBytes, h.messages]
  files := by
    rw [hdisk, htrace, taken_concat, sentFile_concat, hunsent]
    simp [Event.taken?, Event.sentBytes, h.files]
  accepted := by
    rw [htrace, taken_concat, accepted_concat]
    simp only [Event.taken?, Event.accepted?, Option.toList_none, Option.toList_some,
      List.append_nil]
    refine (List.perm_append_singleton o _).trans ?_
    refine (h.accepted.cons o).trans ?_
    exact List.perm_middle.symm.trans (hcoming.symm.append_left _)
  idle := by
    rw [hwriting, hbuffered, hunsent]
    exact h.idle

/-! ## The books of every connection -/

/-- What holds of the trace, and of the state together with the functors that close. -/
structure Booked (v : View) : Prop where
  drained : ShutdownDrained v.disk v.trace
  disconnected : .shutdownWrite ∈ v.trace → v.state = .kDisConnected
  started : .shutdown ∈ v.trace → v.state = .kDisConnecting ∨ v.state = .kDisConnected
  closing : v.state = .kDisConnecting → ∃ f ∈ v.functors, f.closes = true

/-- A step that shuts nothing down. -/
theorem Booked.step {v v' : View} (h : v.Booked) {es : List Event}
    (htrace : v'.trace = v.trace ++ es)
    (hes : es = [] ∨ ∃ e, es = [e] ∧ e.ofShutdown = false) (hdisk : v'.disk = v.disk)
    (hforward : Forward v.state v'.state)
    (hclosing : v'.state = .kDisConnecting → ∃ f ∈ v'.functors, f.closes = true) :
    v'.Booked := by
  have hmem : ∀ e ∈ v'.trace, e.ofShutdown = true → e ∈ v.trace := by
    intro e he hkind
    rw [htrace] at he
    rcases hes with rfl | ⟨e', rfl, hne⟩
    · simpa using he
    · rcases List.mem_append.mp he with he | he
      · exact he
      · obtain rfl := List.mem_singleton.mp he
        exact absurd (hne.symm.trans hkind) Bool.false_ne_true
  refine ⟨?_, fun he => ?_, fun he => ?_, hclosing⟩
  · rw [htrace, hdisk]
    rcases hes with rfl | ⟨e, rfl, hne⟩
    · rw [List.append_nil]
      exact h.drained
    · refine shutdownDrained_concat h.drained fun he => ?_
      rw [he] at hne
      contradiction
  · exact hforward.1 (h.disconnected (hmem _ he rfl))
  · rcases h.started (hmem _ he rfl) with hs | hs
    · exact hforward.2 hs
    · exact .inr (hforward.1 hs)

/-- Closing a connection shuts nothing down. -/
theorem Booked.closes {v u v' : View} (h : v.Booked) (hc : Closes u v') {es : List Event}
    (htrace : u.trace = v.trace ++ es)
    (hes : es = [] ∨ ∃ e, es = [e] ∧ e.ofShutdown = false) (hdisk : u.disk = v.disk)
    (hstate : u.state = v.state) : v'.Booked := by
  cases hc with
  | already hs =>
    exact h.step htrace hes hdisk (hstate ▸ forward_rfl _) fun hd => by simp [hs] at hd
  | closed hs => exact h.step htrace hes hdisk ⟨fun _ => rfl, fun _ => .inr rfl⟩ (by simp)
  | aborted hs =>
    exact h.step htrace hes hdisk (hstate ▸ forward_rfl _) fun hd => by simp [hs] at hd

/-- When a functor that does not close has been run, the closing ones are still to run. -/
theorem Booked.closing_rest {v v' : View} (h : v.Booked) (htodo : ∀ g ∈ v.todo, g.closes = false)
    (hfunc : v'.func = v.func) (hpendingFunc : ∀ f ∈ v.pendingFunc, f ∈ v'.pendingFunc)
    (hstate : v'.state = v.state) (hd : v'.state = .kDisConnecting) :
    ∃ f ∈ v'.functors, f.closes = true := by
  obtain ⟨f, hf, hcloses⟩ := h.closing (hstate ▸ hd)
  refine ⟨f, ?_, hcloses⟩
  simp only [functors, List.mem_append, Option.mem_toList] at hf ⊢
  rcases hf with hf | hf | hf
  · simp [htodo f hf] at hcloses
  · exact .inr (.inl (hfunc ▸ hf))
  · exact .inr (.inr (hpendingFunc f hf))

end View

namespace TcpLoop

/-- The step runs `shutdownInLoop`. -/
def shutsDown (w : TcpLoop) : Action → Bool
  | .run _ => w.todo = some .shutdownInLoop
  | _ => false

/-- The condition for a graceful shutdown: no file is given up for another one, and
`shutdownInLoop` runs in a connection that is not writing and has not been closed meanwhile, with
no output queued. -/
structure Drains (w : TcpLoop) (a : Action) : Prop where
  overFile : w.opensFile a = true → w.unsent = []
  atShutdown : w.shutsDown a = true → w.conn.state = .kDisConnecting ∧
    w.conn.channel.isWriting = false ∧ outputs (w.func ++ w.pendingFunc) = []

instance (w : TcpLoop) (a : Action) : Decidable (w.Drains a) :=
  decidable_of_iff ((w.opensFile a = true → w.unsent = []) ∧
      (w.shutsDown a = true → w.conn.state = .kDisConnecting ∧
        w.conn.channel.isWriting = false ∧ outputs (w.func ++ w.pendingFunc) = []))
    ⟨fun h => ⟨h.1, h.2⟩, fun h => ⟨h.overFile, h.atShutdown⟩⟩

variable {w : TcpLoop}

/-- A close closes. -/
theorem closed_of_closes {u v : View} (h : Closes u v) : v.closed := by
  cases h with
  | already hstate => exact .inl hstate
  | closed hstate => exact .inl rfl
  | aborted hstate => exact .inr rfl

/-- A passage of the output keeps the balance, or closes. -/
theorem balanced_flow {v v' : View} (h : v.Balanced) (hf : Flow v v') :
    v'.closed ∨ v'.Balanced := by
  cases hf with
  | quiet => exact .inr h
  | drain hbuffered hb =>
    refine .inr ⟨?_, ?_, ?_, ?_⟩
    · rw [taken_concat, wrote_concat, ← List.append_nil (messageBytes _)]
      simp [Event.taken?, Event.wroteBytes, h.messages, hbuffered]
    · simp [taken_concat, sentFile_concat, Event.taken?, Event.sentBytes, h.files]
    · rw [taken_concat, accepted_concat]
      simp only [Event.taken?, Event.accepted?, Option.toList_none, List.append_nil]
      exact h.accepted
    · intro hwriting
      rcases hb with rfl | ⟨-, rfl, hunsent⟩
      · obtain ⟨hnil, hunsent⟩ := h.idle hwriting
        rw [hbuffered] at hnil
        exact ⟨(List.append_eq_nil_iff.mp hnil).2, hunsent⟩
      · exact ⟨rfl, hunsent⟩
  | transfer hbuffered hunsent hb =>
    refine .inr ⟨?_, ?_, ?_, ?_⟩
    · simp [taken_concat, wrote_concat, Event.taken?, Event.wroteBytes, h.messages]
    · simp [taken_concat, sentFile_concat, Event.taken?, Event.sentBytes, h.files, hunsent]
    · rw [taken_concat, accepted_concat]
      simp only [Event.taken?, Event.accepted?, Option.toList_none, List.append_nil]
      exact h.accepted
    · intro hwriting
      rcases hb with rfl | ⟨-, rfl⟩
      · obtain ⟨hnil, hnone⟩ := h.idle hwriting
        rw [hunsent] at hnone
        exact ⟨hnil, (List.append_eq_nil_iff.mp hnone).2⟩
      · exact ⟨hbuffered, rfl⟩
  | close hu hc => exact .inl (closed_of_closes hc)

/-- So does every step that meets the condition. -/
theorem balanced_effect {a : Action} {v : View} (h : w.view.Balanced) (hsound : w.view.Sound)
    (hg : w.Drains a) (he : Effect w a v) : v.closed ∨ v.Balanced := by
  have hcoming := coming_view w
  have hmoves : ∀ {todo : Option Functor} {func pendingFunc : List Functor} {s : StateE},
      outputs (todo.toList ++ (func ++ pendingFunc)) = w.view.coming →
      ({ w.view with todo, func, pendingFunc, state := s } : View).Balanced := by
    intro todo func pendingFunc s hsame
    exact h.same rfl rfl rfl rfl rfl rfl rfl rfl hsame
  cases he with
  | quiet => exact .inr h
  | flow htodo hflow => exact balanced_flow h hflow
  | start htodo hf =>
    rcases hf with hf | hstate
    · refine .inr (hmoves (s := w.conn.state) ?_)
      rw [hcoming, outputs_neutral htodo]
      simp [outputs_none hf, outputs_append]
    · exact .inl (.inl hstate)
  | nextFunc htodo hfunc =>
    refine .inr (hmoves (s := w.conn.state) ?_)
    simp [View.coming, View.functors, htodo, hfunc]
  | doPendingFuncs hfunc =>
    refine .inr (hmoves (s := w.conn.state) ?_)
    simp [View.coming, View.functors, hfunc]
  | queue hf =>
    refine .inr (hmoves (s := w.conn.state) ?_)
    simp [View.coming, View.functors, outputs_append, outputs_none hf]
  | queueOutput hf hstate =>
    refine .inr (h.accept _ rfl rfl rfl rfl rfl ?_)
    rw [hcoming]
    refine List.Perm.trans (List.Perm.of_eq ?_) (List.perm_append_singleton _ _)
    simp [View.coming, View.functors, outputs_append, outputs_some hf]
  | accept ho hf htodo hstate hfile =>
    refine .inr (h.accept _ rfl rfl rfl rfl rfl ?_)
    rw [hcoming, outputs_neutral htodo]
    simp [View.coming, View.functors, outputs_append, outputs_some hf]
  | disconnect hf hcloses hstate hes hplace =>
    rename_i f es todo pendingFunc
    have hsame : outputs (todo.toList ++ (w.func ++ pendingFunc)) = w.view.coming := by
      rw [hcoming]
      rcases hplace with ⟨htodo, rfl, rfl⟩ | ⟨rfl, rfl⟩
      · simp [outputs_append, outputs_none hf, htodo]
      · simp [outputs_append, outputs_none hf]
    rcases hes with rfl | rfl
    · rw [List.append_nil]
      exact .inr (hmoves hsame)
    · refine .inr (h.same rfl ?_ ?_ ?_ ?_ rfl rfl rfl hsame)
      · simp [taken_concat, Event.taken?]
      · simp [wrote_concat, Event.wroteBytes]
      · simp [sentFile_concat, Event.sentBytes]
      · simp [accepted_concat, Event.accepted?]
  | drop htodo hf hcloses =>
    rcases hf with hf | hstate
    · refine .inr (hmoves (s := w.conn.state) ?_)
      rw [hcoming, htodo]
      simp [outputs_append, outputs_none hf]
    · exact .inl (.inl hstate)
  | establish htodo hstate =>
    refine .inr (hmoves ?_)
    rw [hcoming, htodo]
    simp [outputs_append, outputs_none (f := .connectEstablelished) rfl]
  | abort htodo => exact .inl (.inr rfl)
  | destroy htodo hstate => exact .inl (.inl rfl)
  | close es hes hc => exact .inl (closed_of_closes hc)
  | write hd tl htodo hstate hwriting hbuffered hnext =>
    obtain ⟨-, hunsent⟩ := h.idle hwriting
    refine .inr (h.take htodo rfl rfl ?_ rfl rfl ?_ ?_ ?_ ?_ ?_)
    · rcases hnext with rfl | rfl <;> rfl
    · rw [taken_concat, taken_concat]
      simp [Event.taken?]
    · rw [accepted_concat, accepted_concat]
      simp [Event.accepted?]
    · rw [wrote_concat, wrote_concat]
      simp [Event.wroteBytes, hbuffered]
    · rw [sentFile_concat, sentFile_concat]
      simp [Event.sentBytes]
    · intro hidle
      have htl : tl = [] := by simpa [hwriting] using hidle
      exact ⟨by rw [hbuffered, htl, List.append_nil], hunsent⟩
  | append htodo hstate hnext =>
    refine .inr (h.take htodo rfl rfl ?_ rfl rfl ?_ ?_ ?_ ?_ ?_)
    · rcases hnext with rfl | rfl <;> rfl
    · simp [taken_concat, Event.taken?]
    · simp [accepted_concat, Event.accepted?]
    · simp [wrote_concat, Event.wroteBytes]
    · simp [sentFile_concat, Event.sentBytes]
    · intro hidle
      obtain ⟨hwriting, hdata⟩ := Bool.or_eq_false_iff.mp hidle
      obtain ⟨hbuffered, hunsent⟩ := h.idle hwriting
      have hdata : _ = [] := not_not.mp (of_decide_eq_false hdata)
      exact ⟨by rw [hbuffered, hdata, List.append_nil], hunsent⟩
  | lose htodo hstate =>
    rename_i env filePath
    refine absurd ?_ (hsound.fresh hstate filePath)
    rw [hcoming, htodo]
    simp [outputs_some (f := .sendFileInLoop filePath) rfl]
  | openFile htodo hopened hstate =>
    have hunsent : w.unsent = [] := by
      refine hg.overFile ?_
      simp only [opensFile, htodo, hopened]
      exact decide_eq_true hstate
    refine .inr (h.take htodo rfl rfl rfl rfl rfl ?_ ?_ ?_ ?_ (by simp))
    · simp [taken_concat, Event.taken?]
    · simp [accepted_concat, Event.accepted?]
    · simp [wrote_concat, Event.wroteBytes]
    · simp [sentFile_concat, Event.sentBytes, hunsent]
  | shutdownWriting htodo hwriting =>
    obtain ⟨-, hidle, -⟩ := hg.atShutdown (by simp [shutsDown, htodo])
    exact absurd (hidle.symm.trans hwriting) Bool.false_ne_true
  | shutdown htodo hwriting hc => exact .inl (closed_of_closes hc)

/-- A functor that closes stays in the queue when another comes in behind it. -/
theorem queued_closing {v : View} {f : Functor} (h : ∃ g ∈ v.functors, g.closes = true) :
    ∃ g ∈ v.todo.toList ++ (v.func ++ (v.pendingFunc ++ [f])), g.closes = true := by
  obtain ⟨g, hg, hcloses⟩ := h
  refine ⟨g, ?_, hcloses⟩
  rw [← List.append_assoc, ← List.append_assoc, List.append_assoc v.todo.toList]
  exact List.mem_append_left _ hg

/-- A step that meets the condition keeps the shutdown booked. -/
theorem booked_effect {a : Action} {v : View} (h : w.view.Booked)
    (hbalanced : w.view.closed ∨ w.view.Balanced) (hlive : w.aborted = false) (hg : w.Drains a)
    (he : Effect w a v) : v.Booked := by
  have hneutral : (∀ g ∈ w.todo, g.output? = none ∧ g.closes = false) →
      ∀ g ∈ w.view.todo, g.closes = false := fun h g hg => (h g hg).2
  have hrun : ∀ {f : Functor}, w.todo = some f → f.closes = false →
      ∀ g ∈ w.view.todo, g.closes = false := by
    intro f htodo hf g hg
    obtain rfl := Option.some.inj (htodo.symm.trans hg)
    exact hf
  cases he with
  | quiet => exact h
  | flow htodo hflow =>
    cases hflow with
    | quiet => exact h
    | drain hbuffered hb =>
      exact h.step rfl (.inr ⟨_, rfl, rfl⟩) rfl (forward_rfl _) h.closing
    | transfer hbuffered hunsent hb =>
      exact h.step rfl (.inr ⟨_, rfl, rfl⟩) rfl (forward_rfl _) h.closing
    | close hu hc => exact h.closes hc (List.append_nil _).symm (.inl rfl) rfl rfl
  | start htodo hf =>
    exact h.step (List.append_nil _).symm (.inl rfl) rfl (forward_rfl _)
      (h.closing_rest (hneutral htodo) rfl (fun _ => id) rfl)
  | nextFunc htodo hfunc =>
    refine h.step (List.append_nil _).symm (.inl rfl) rfl (forward_rfl _) fun hd => ?_
    have hclosing := h.closing hd
    simpa [View.functors, htodo, hfunc] using hclosing
  | doPendingFuncs hfunc =>
    refine h.step (List.append_nil _).symm (.inl rfl) rfl (forward_rfl _) fun hd => ?_
    have hclosing := h.closing hd
    simpa [View.functors, hfunc] using hclosing
  | queue hf =>
    exact h.step (List.append_nil _).symm (.inl rfl) rfl (forward_rfl _) fun hd =>
      queued_closing (h.closing hd)
  | queueOutput hf hstate =>
    exact h.step rfl (.inr ⟨_, rfl, rfl⟩) rfl (forward_rfl _) fun hd =>
      queued_closing (h.closing hd)
  | accept ho hf htodo hstate hfile =>
    exact h.step rfl (.inr ⟨_, rfl, rfl⟩) rfl (forward_rfl _)
      (h.closing_rest (hneutral htodo) rfl (fun _ => id) rfl)
  | disconnect hf hcloses hstate hes hplace =>
    rename_i f es todo pendingFunc
    have hshut : Event.shutdownWrite ∉ w.view.trace := by
      intro he
      have hdisconnected := h.disconnected he
      rcases hstate with hstate | hstate <;> simp [hstate] at hdisconnected
    have hclosing : ∃ g ∈ todo.toList ++ (w.func ++ pendingFunc), g.closes = true := by
      refine ⟨f, ?_, hcloses⟩
      rcases hplace with ⟨-, rfl, rfl⟩ | ⟨rfl, rfl⟩ <;> simp
    refine ⟨?_, ?_, fun _ => .inl rfl, fun _ => hclosing⟩
    · rcases hes with rfl | rfl
      · rw [List.append_nil]
        exact h.drained
      · exact shutdownDrained_concat h.drained (by simp)
    · intro he
      rcases hes with rfl | rfl
      · exact absurd (by simpa using he) hshut
      · exact absurd (by simpa using he) hshut
  | drop htodo hf hcloses =>
    refine h.step (List.append_nil _).symm (.inl rfl) rfl (forward_rfl _) fun hd => ?_
    refine h.closing_rest (hrun htodo ?_) rfl (fun _ => id) rfl hd
    exact Bool.eq_false_iff.mpr fun hc => hcloses hc hd
  | establish htodo hstate =>
    refine h.step (List.append_nil _).symm (.inl rfl) rfl ?_ (by simp)
    simp [Forward, hstate]
  | abort htodo =>
    exact h.step (List.append_nil _).symm (.inl rfl) rfl (forward_rfl _)
      (h.closing_rest (hrun htodo rfl) rfl (fun _ => id) rfl)
  | destroy htodo hstate =>
    exact h.step (List.append_nil _).symm (.inl rfl) rfl ⟨fun _ => rfl, fun _ => .inr rfl⟩ (by simp)
  | close es hes hc =>
    refine h.closes hc rfl ?_ rfl rfl
    rcases hes with rfl | ⟨o, rfl⟩
    · exact .inl rfl
    · exact .inr ⟨_, rfl, rfl⟩
  | write hd tl htodo hstate hwriting hbuffered hnext =>
    rename_i env todo
    have htaken : ({ w.view with
        todo
        trace := w.view.trace ++ [.taken (.message (hd ++ tl))] } : View).Booked :=
      h.step rfl (.inr ⟨_, rfl, rfl⟩) rfl (forward_rfl _)
        (h.closing_rest (hrun htodo rfl) rfl (fun _ => id) rfl)
    exact htaken.step rfl (.inr ⟨_, rfl, rfl⟩) rfl (forward_rfl _) htaken.closing
  | append htodo hstate hnext =>
    exact h.step rfl (.inr ⟨_, rfl, rfl⟩) rfl (forward_rfl _)
      (h.closing_rest (hrun htodo rfl) rfl (fun _ => id) rfl)
  | lose htodo hstate =>
    exact h.step rfl (.inr ⟨_, rfl, rfl⟩) rfl (forward_rfl _)
      (h.closing_rest (hrun htodo rfl) rfl (fun _ => id) rfl)
  | openFile htodo hopened hstate =>
    exact h.step rfl (.inr ⟨_, rfl, rfl⟩) rfl (forward_rfl _)
      (h.closing_rest (hrun htodo rfl) rfl (fun _ => id) rfl)
  | shutdownWriting htodo hwriting =>
    obtain ⟨-, hidle, -⟩ := hg.atShutdown (by simp [shutsDown, htodo])
    exact absurd (hidle.symm.trans hwriting) Bool.false_ne_true
  | shutdown htodo hwriting hc =>
    obtain ⟨hstate, hidle, hqueue⟩ := hg.atShutdown (by simp [shutsDown, htodo])
    have hopen : w.view.Balanced := hbalanced.resolve_left (by simp [View.closed, hstate, hlive])
    have hdrained : Drained w.disk w.view.trace := by
      refine hopen.drained hwriting ?_
      rw [coming_view, htodo, ← outputs_append, hqueue, List.append_nil]
      rfl
    cases hc with
    | already hs => simp [hstate] at hs
    | closed hs =>
      exact ⟨shutdownDrained_concat h.drained fun _ => hdrained, fun _ => rfl, fun _ => .inr rfl,
        by simp⟩
    | aborted hs => simp [hstate] at hs

/-- A new connection owes nothing. -/
theorem balanced_start (fd : Nat) (callbacks : Callback → Bool) (disk : Bytes → Bytes) :
    (start fd callbacks disk).view.Balanced where
  messages := rfl
  files := rfl
  accepted := List.Perm.refl _
  idle _ := ⟨rfl, rfl⟩

/-- It was not shut down. -/
theorem booked_start (fd : Nat) (callbacks : Callback → Bool) (disk : Bytes → Bytes) :
    (start fd callbacks disk).view.Booked where
  drained := atEvery_nil
  disconnected := nofun
  started := nofun
  closing := nofun

/-- What the functors of a connection are, in the order in which they will run. -/
def functors (w : TcpLoop) : List Functor := w.todo.toList ++ (w.func ++ w.pendingFunc)

/-- In every run that shuts down as it should, all accepted output has been handed to the kernel
before `shutdownWrite` executes, the connection is then closed, and a connection that was shut down
is closed unless `shutdownInLoop` or `forceCloseInLoop` is still to run. -/
theorem graceful_of_run {fd : Nat} {callbacks : Callback → Bool} {disk : Bytes → Bytes}
    {as : List Action} (h : Run step Drains (start fd callbacks disk) as w) :
    ShutdownDrained disk w.trace ∧
      (.shutdownWrite ∈ w.trace → w.conn.state = .kDisConnected) ∧
      (.shutdown ∈ w.trace → w.conn.state = .kDisConnected ∨
        ∃ f ∈ w.functors, f.closes = true) := by
  have hinv : w.view.Sound ∧ (w.view.closed ∨ w.view.Balanced) ∧ w.view.Booked ∧ w.disk = disk := by
    refine h.invariant
      (I := fun w => w.view.Sound ∧ (w.view.closed ∨ w.view.Balanced) ∧ w.view.Booked ∧
        w.disk = disk) ⟨sound_start fd callbacks disk, .inr (balanced_start fd callbacks disk),
        booked_start fd callbacks disk, rfl⟩ ?_
    rintro t a u ⟨hsound, hbalanced, hbooked, hdisk⟩ hg hstep
    have he := effect_of_step hsound.sized hstep
    have hlive := aborted_of_step hstep
    refine ⟨sound_effect hsound he, ?_, booked_effect hbooked hbalanced hlive hg he,
      he.disk.trans hdisk⟩
    rcases hbalanced with hclosed | hbalanced
    · exact .inl (.inl (he.forward.1 (hclosed.resolve_right (by simp [hlive]))))
    · exact balanced_effect hbalanced hsound hg he
  obtain ⟨-, -, hbooked, rfl⟩ := hinv
  refine ⟨shutdownDrained_of_filter hbooked.drained, fun he => ?_, fun he => ?_⟩
  · exact hbooked.disconnected (List.mem_filter.mpr ⟨he, rfl⟩)
  · rcases hbooked.started (List.mem_filter.mpr ⟨he, rfl⟩) with hstate | hstate
    · exact .inr (hbooked.closing hstate)
    · exact .inl hstate

/-- A message is written in two pieces, and the connection is shut down when it is complete. -/
def shutdownWhenWritten : List Action :=
  establishing ++ [.call (.send [10, 11]), .run { timer := 2, write := .done 1 }, .ret] ++
  writeable 2 (.done 9) .again ++ [.call .shutdown, .run { timer := 1 }]

/-- A shutdown when everything was written hands all over, and closes. -/
theorem graceful_of_run_shutdownWhenWritten :
    ∃ w, Run step Drains (start 7 (fun _ => true) id) shutdownWhenWritten w ∧
      handed w.trace = [10, 11] ∧ Event.shutdownWrite ∈ w.trace ∧
      ShutdownDrained id w.trace ∧
      (.shutdownWrite ∈ w.trace → w.conn.state = .kDisConnected) ∧
      (.shutdown ∈ w.trace → w.conn.state = .kDisConnected ∨
        ∃ f ∈ w.functors, f.closes = true) := by
  have htrace : (replay step Drains (start 7 (fun _ => true) id) shutdownWhenWritten).map
      (fun w => (handed w.trace, decide (Event.shutdownWrite ∈ w.trace))) =
        some ([10, 11], true) := by
    decide +kernel
  obtain ⟨w, hw, he⟩ := Option.map_eq_some_iff.mp htrace
  obtain ⟨hhanded, hshut⟩ := Prod.mk.inj he
  exact ⟨w, .of_replay hw, hhanded, of_decide_eq_true hshut, graceful_of_run (.of_replay hw)⟩

/-- The connection is shut down while one byte of a message is in the buffer. -/
def shutdownWhileWriting : List Action :=
  establishing ++ [.call (.send [10, 11]), .run { timer := 2, write := .done 1 },
    .call .shutdown, .run { timer := 2 }]

/-- The loop thread shuts the connection down while a message of another thread is queued. -/
def shutdownBeforeQueued : List Action :=
  establishing ++ [.callElsewhere (.send [10]), .call .shutdown, .run { timer := 2 }]

/-- In both runs `shutdownWrite` executes before the accepted bytes have been handed over. -/
theorem shutdown_loses_output :
    (∃ w, Run step anyStep (start 7 (fun _ => true) id) shutdownWhileWriting w ∧
      ¬ShutdownDrained id w.trace) ∧
    ∃ w, Run step anyStep (start 7 (fun _ => true) id) shutdownBeforeQueued w ∧
      ¬ShutdownDrained id w.trace := by
  have hlost : ∀ (data bytes : Bytes) {trace : List Event}, accepted trace = [.message data] →
      wrote trace = bytes → bytes ≠ data → ¬Drained id trace := by
    rintro data bytes trace haccepted hwrote hne ⟨os, hperm, hmessages, -⟩
    rw [haccepted, List.singleton_perm] at hperm
    rw [← hperm, messageBytes_message, hwrote] at hmessages
    exact hne hmessages
  constructor
  · have htrace : (replay step anyStep (start 7 (fun _ => true) id) shutdownWhileWriting).map
        (·.trace) = some ([.invoked .connection, .accepted (.message [10, 11]),
          .taken (.message [10, 11]), .wrote [10], .shutdown] ++ .shutdownWrite :: []) := by
      decide +kernel
    obtain ⟨w, hw, htrace⟩ := Option.map_eq_some_iff.mp htrace
    exact ⟨w, .of_replay hw, fun h => hlost [10, 11] [10] rfl rfl (by decide) (h _ _ _ htrace rfl)⟩
  · have htrace : (replay step anyStep (start 7 (fun _ => true) id) shutdownBeforeQueued).map
        (·.trace) = some ([.invoked .connection, .accepted (.message [10]), .shutdown] ++
          .shutdownWrite :: [.invoked .close]) := by
      decide +kernel
    obtain ⟨w, hw, htrace⟩ := Option.map_eq_some_iff.mp htrace
    exact ⟨w, .of_replay hw, fun h => hlost [10] [] rfl rfl (by decide) (h _ _ _ htrace rfl)⟩

end TcpLoop

end ClearMoon.Tcp
