import ClearMoon.Tcp.Descriptors
import ClearMoon.Tcp.Send

/-!
# File transfer

Between the step that opens a file and the next one that opens another, a connection that stays open
sends the file byte by byte. The transfer is over when the last byte has been sent; of an empty file
there is no last byte, and its transfer goes on as long as the connection is open.
-/

namespace ClearMoon.Tcp

open ClearMoon.Net ClearMoon.Timer

/-! ## The file in progress -/

namespace Desk

def closed (d : Desk) : Prop := d.state = .kDisConnected ∨ d.aborted = true

/-- The opened file with this serial number and content is being sent, or it has been sent and its
descriptor closed. -/
inductive Carries (d : Desk) (serial : Nat) (content : Bytes) : Prop
  | sending {fd} (hsending : d.sendingFile = true) (hfd : d.fileFd = some fd)
      (hfile : d.files.get? fd = some ⟨serial, content⟩)
      (htotal : d.fileTotalSize = content.length)
      (hoffset : content = [] ∨ d.fileSentOffset < d.fileTotalSize)
  | done (hsending : d.sendingFile = false) (hfd : d.fileFd = none) (hcontent : content ≠ [])
      (hfreed : serial ∈ d.files.freed)

variable {d e : Desk} {serial : Nat} {content : Bytes}

/-- A step that leaves file and descriptor alone carries the file on. -/
theorem Carries.same (h : d.Carries serial content)
    (hlive : ∀ fd, e.files.get? fd = d.files.get? fd) (hfreed : d.files.freed ⊆ e.files.freed)
    (hfd : e.fileFd = d.fileFd) (hoffset : e.fileSentOffset = d.fileSentOffset)
    (htotal : e.fileTotalSize = d.fileTotalSize) (hsending : e.sendingFile = d.sendingFile) :
    e.Carries serial content := by
  cases h with
  | sending hs hf hfile ht ho =>
    refine .sending (hsending.trans hs) (hfd.trans hf) ((hlive _).trans hfile) (htotal.trans ht) ?_
    rwa [hoffset, htotal]
  | done hs hf hc hmem => exact .done (hsending.trans hs) (hfd.trans hf) hc (hfreed hmem)

/-- The end of a connection closes it. -/
theorem Ends.isClosed (h : d.Ends e) : e.closed := by
  cases h with
  | already hs => exact .inl hs
  | closed hs => exact .inl rfl
  | aborted hs => exact .inr rfl

/-- The offset grows up to the size of the file, and the file is closed when it comes there. -/
theorem Carries.advance (h : d.Carries serial content) {fd : Addr} {file : OpenFile} {k : Nat}
    (hfd : d.fileFd = some fd)
    (hfile : d.files.get? fd = some file) (hpos : 0 < k)
    (hk : d.fileSentOffset + k ≤ file.content.length) : (d.advance k).Carries serial content := by
  cases h with
  | @sending fd' hs hfd' hfile' htotal hoffset =>
    obtain rfl := Option.some.inj (hfd.symm.trans hfd')
    obtain rfl := Option.some.inj (hfile.symm.trans hfile')
    have hcontent : content ≠ [] := by
      rintro rfl
      have : d.fileSentOffset + k ≤ 0 := hk
      omega
    rw [Desk.advance]
    dsimp only
    split
    · refine .done sendingFile_drop fileFd_drop hcontent ?_
      rw [drop]
      simp only [hfd]
      exact Arena.mem_freed_free hfile
    · rename_i hless
      exact .sending hs hfd hfile htotal (.inr (Nat.lt_of_not_le hless))
  | done hs hfd' hc hmem =>
    rw [hfd] at hfd'
    contradiction

/-- An event of the descriptor closes the connection, or carries the file on. -/
theorem Carries.handles (h : d.Carries serial content) (hd : d.Handles e) :
    e.closed ∨ e.Carries serial content := by
  cases hd with
  | keep hs => exact .inr (h.same (fun _ => rfl) (List.Subset.refl _) rfl rfl rfl rfl)
  | @peek files e hlive hfaults hfreed he =>
    rcases he with rfl | he
    · exact .inr (h.same hlive hfreed rfl rfl rfl rfl)
    · exact .inl he.isClosed
  | close he => exact .inl he.isClosed
  | fail he => exact .inl he.isClosed
  | send hsending hfd hfile hpos hk => exact .inr (h.advance hfd hfile hpos hk)

end Desk

namespace TcpLoop

variable {u v w w' : TcpLoop}

/-- A transfer has nothing left to send and does not end. -/
def Stalled (w : TcpLoop) : Prop :=
  w.conn.sendingFile = true ∧ w.conn.fileTotalSize ≤ w.conn.fileSentOffset ∧
    w.conn.writeBuffer.readable = []

instance (w : TcpLoop) : Decidable w.Stalled := inferInstanceAs (Decidable (_ ∧ _ ∧ _))

/-- The transfer of the opened file with this serial number is over. The file has been closed: its
number is on record as freed, no descriptor refers to it, and `fileFd_` stores none. Nothing is sent
any more, and `EPOLLOUT` is off when no message is in the buffer. -/
structure TransferOver (w : TcpLoop) (serial : Nat) : Prop where
  freed : serial ∈ w.files.freed
  closed : ∀ fd file, w.files.get? fd = some file → file.serial ≠ serial
  fileFd : w.conn.fileFd = none
  sendingFile : w.conn.sendingFile = false
  writing : w.conn.writeBuffer.readable = [] → w.conn.channel.isWriting = false

/-- The step opens no file. -/
def SameFile (w : TcpLoop) (a : Action) : Prop := w.opensFile a = false

/-- The step takes no message into the loop. -/
def NoMessage (w : TcpLoop) (a : Action) : Prop := w.takesMessage a = false

instance (w : TcpLoop) (a : Action) : Decidable (w.SameFile a) :=
  inferInstanceAs (Decidable (_ = _))

instance (w : TcpLoop) (a : Action) : Decidable (w.NoMessage a) :=
  inferInstanceAs (Decidable (_ = _))

/-- So does every step without another file. -/
theorem carries_step {a : Action} {serial : Nat} {content : Bytes}
    (h : w.desk.Carries serial content) (hfile : w.SameFile a) (hstep : w.step a = some w') :
    w'.desk.closed ∨ w'.desk.Carries serial content := by
  have hturns := turns_of_step hstep
  generalize w'.desk = d at hturns ⊢
  cases hturns with
  | handle hd => exact h.handles hd
  | openFile htodo hopened hfd hstate =>
    refine absurd ?_ (Bool.eq_false_iff.mp hfile)
    simp only [opensFile, htodo, hopened]
    exact decide_eq_true hstate
  | destroy htodo hstate => exact .inl (.inl rfl)

/-! ## The bytes -/

/-- A step that opens no file moves bytes of the file from the disk to the kernel. -/
theorem sentFile_effect {a : Action} {v : View} (hfile : w.SameFile a) (he : Effect w a v) :
    v.closed ∨ sentFile v.trace ++ v.unsent = sentFile w.view.trace ++ w.unsent := by
  cases he with
  | flow htodo hflow =>
    cases hflow with
    | quiet => exact .inr rfl
    | drain hbuffered hb => exact .inr (by simp [sentFile_concat, Event.sentBytes])
    | transfer hbuffered hunsent hb =>
      have hunsent : w.unsent = _ := hunsent
      exact .inr (by simp [sentFile_concat, Event.sentBytes, hunsent])
    | close hu hc => exact .inl (closed_of_closes hc)
  | queueOutput hf hstate => exact .inr (by simp [sentFile_concat, Event.sentBytes])
  | accept ho hf htodo hstate hfile => exact .inr (by simp [sentFile_concat, Event.sentBytes])
  | disconnect hf hcloses hstate hes hplace =>
    rcases hes with rfl | rfl
    · exact .inr (by simp)
    · exact .inr (by simp [sentFile_concat, Event.sentBytes])
  | abort htodo => exact .inl (.inr rfl)
  | destroy htodo hstate => exact .inl (.inl rfl)
  | close es hes hc => exact .inl (closed_of_closes hc)
  | write hd tl htodo hstate hwriting hbuffered hnext =>
    right
    rw [sentFile_concat, sentFile_concat]
    simp [Event.sentBytes]
  | append htodo hstate hnext => exact .inr (by simp [sentFile_concat, Event.sentBytes])
  | lose htodo hstate => exact .inr (by simp [sentFile_concat, Event.sentBytes])
  | openFile htodo hopened hstate =>
    refine absurd ?_ (Bool.eq_false_iff.mp hfile)
    simp only [opensFile, htodo, hopened]
    exact decide_eq_true hstate
  | shutdownWriting htodo hwriting => exact .inr (by simp [sentFile_concat, Event.sentBytes])
  | shutdown htodo hwriting hc => exact .inl (closed_of_closes hc)
  | _ => exact .inr rfl

/-- A step that takes no output into the loop moves bytes along the line. -/
theorem line_effect {a : Action} {v : View} (hfile : w.SameFile a) (hmessage : w.NoMessage a)
    (he : Effect w a v) : v.closed ∨ v.line = w.view.line := by
  have hnone {env : Env} {data : Bytes} (htodo : w.todo = some (.sendInLoop data))
      (hstate : w.conn.state ≠ .kDisConnected) (hm : w.NoMessage (.run env)) : data = [] := by
    by_contra hdata
    refine absurd ?_ (Bool.eq_false_iff.mp hm)
    simp only [takesMessage, htodo]
    exact decide_eq_true ⟨hdata, hstate⟩
  cases he with
  | flow htodo hflow =>
    cases hflow with
    | quiet => exact .inr rfl
    | drain hbuffered hb =>
      exact .inr (by simp [View.line, handed_concat, Event.wroteBytes, Event.sentBytes, hbuffered])
    | transfer hbuffered hunsent hb =>
      have hunsent : w.unsent = _ := hunsent
      exact .inr (by
        simp [View.line, handed_concat, Event.wroteBytes, Event.sentBytes, hbuffered, hunsent])
    | close hu hc => exact .inl (closed_of_closes hc)
  | queueOutput hf hstate =>
    exact .inr (by simp [View.line, handed_concat, Event.wroteBytes, Event.sentBytes])
  | accept ho hf htodo hstate hfile =>
    exact .inr (by simp [View.line, handed_concat, Event.wroteBytes, Event.sentBytes])
  | disconnect hf hcloses hstate hes hplace =>
    rcases hes with rfl | rfl
    · exact .inr (by simp [View.line])
    · exact .inr (by simp [View.line, handed_concat, Event.wroteBytes, Event.sentBytes])
  | abort htodo => exact .inl (.inr rfl)
  | destroy htodo hstate => exact .inl (.inl rfl)
  | close es hes hc => exact .inl (closed_of_closes hc)
  | write hd tl htodo hstate hwriting hbuffered hnext =>
    obtain ⟨rfl, rfl⟩ := List.append_eq_nil_iff.mp (hnone htodo hstate hmessage)
    right
    rw [View.line, View.line, handed_concat, handed_concat, hbuffered]
    simp [Event.wroteBytes, Event.sentBytes]
  | append htodo hstate hnext =>
    obtain rfl := hnone htodo hstate hmessage
    exact .inr (by simp [View.line, handed_concat, Event.wroteBytes, Event.sentBytes])
  | lose htodo hstate =>
    exact .inr (by simp [View.line, handed_concat, Event.wroteBytes, Event.sentBytes])
  | openFile htodo hopened hstate =>
    refine absurd ?_ (Bool.eq_false_iff.mp hfile)
    simp only [opensFile, htodo, hopened]
    exact decide_eq_true hstate
  | shutdownWriting htodo hwriting =>
    exact .inr (by simp [View.line, handed_concat, Event.wroteBytes, Event.sentBytes])
  | shutdown htodo hwriting hc => exact .inl (closed_of_closes hc)
  | _ => exact .inr rfl

/-! ## From the step that opens the file -/

/-- A file just opened is carried from its first byte. -/
theorem carries_setFile (filePath : Bytes) {fd : Addr} (hfd : w.files.get? fd = none) :
    ((w.openFile filePath fd).setFile fd (w.disk filePath).length).enableWriting.desk.Carries
      w.files.born (w.disk filePath) := by
  have hlive : (w.files.alloc fd ⟨w.files.born, w.disk filePath⟩ hfd rfl).get? fd =
      some ⟨w.files.born, w.disk filePath⟩ := by
    rw [Arena.get?_alloc, if_pos rfl]
  rw [desk_setFile filePath hfd]
  exact .sending rfl rfl hlive rfl (or_iff_not_imp_left.mpr List.length_pos_of_ne_nil)

/-- What the step that opens a file makes of the connection. -/
theorem opened_of_step {env : Env} {filePath : Bytes}
    (htodo : v.todo = some (.sendFileInLoop filePath)) (hopens : v.opensFile (.run env) = true)
    (hstep : v.step (.run env) = some u) :
    u.desk.Carries v.files.born (v.disk filePath) ∧ u.view = { v.view with
      todo := none
      trace := v.view.trace ++ [.taken (.file filePath)]
      unsent := v.disk filePath
      sized := true
      writing := true } := by
  obtain ⟨_, fd, path, ⟨⟩, hf, hopened, hstate⟩ := opensFile_cases hopens
  obtain ⟨⟩ := Option.some.inj (htodo.symm.trans hf)
  cases stepped_of_step hstep with
  | @run _ f hf' henv =>
    obtain rfl := Option.some.inj (htodo.symm.trans hf')
    have hfd : v.files.get? fd = none := henv.file fd (by rw [hopened]; rfl)
    have hstate : v.clearTodo.conn.state ≠ .kDisConnected := hstate
    have htaken : (v.clearTodo.note (.taken (.file filePath))).view = { v.view with
        todo := none
        trace := v.view.trace ++ [.taken (.file filePath)] } := view_note rfl
    have hrun : v.clearTodo.run env (.sendFileInLoop filePath) =
        (((v.clearTodo.note (.taken (.file filePath))).openFile filePath fd).setFile fd
          ((v.clearTodo.note (.taken (.file filePath))).disk filePath).length).enableWriting := by
      rw [TcpLoop.run, sendFileInLoop, if_neg hstate]
      simp only [hopened]
    have hdisk : (v.clearTodo.note (.taken (.file filePath))).disk = v.disk := rfl
    have hborn : (v.clearTodo.note (.taken (.file filePath))).files.born = v.files.born := rfl
    have hfd : (v.clearTodo.note (.taken (.file filePath))).files.get? fd = none := hfd
    rw [hrun, view_enableWriting]
    generalize v.clearTodo.note (.taken (.file filePath)) = t at htaken hdisk hborn hfd ⊢
    rw [view_setFile filePath hfd, htaken, ← hdisk, ← hborn]
    exact ⟨carries_setFile filePath hfd, rfl⟩

/-- A file that is carried to its end has left the desk. -/
theorem stalled_iff {serial : Nat} {content : Bytes} (h : w.desk.Carries serial content)
    (hbuffered : w.conn.writeBuffer.readable = []) : w.Stalled ↔ content = [] := by
  cases h with
  | sending hsending hfd hfile htotal hoffset =>
    constructor
    · rintro ⟨-, hle, -⟩
      refine hoffset.resolve_right fun hlt => ?_
      exact absurd hlt (Nat.not_lt_of_le hle)
    · rintro rfl
      refine ⟨hsending, ?_, hbuffered⟩
      rw [show w.conn.fileTotalSize = 0 from htotal]
      exact Nat.zero_le _
  | done hsending hfd hcontent hfreed =>
    refine iff_of_false (fun hstalled => ?_) hcontent
    exact absurd (hsending.symm.trans hstalled.1) Bool.false_ne_true

/-- While bytes are left, they are unsent. -/
theorem done_of_unsent {serial : Nat} {content : Bytes} (h : w.desk.Carries serial content)
    (hcontent : content ≠ []) (hunsent : w.unsent = []) :
    serial ∈ w.files.freed ∧ w.conn.fileFd = none ∧ w.conn.sendingFile = false := by
  cases h with
  | @sending fd hsending hfd hfile htotal hoffset =>
    have hlt := hoffset.resolve_left hcontent
    have hrest : w.unsent = content.drop w.conn.fileSentOffset := by
      have hfile' : w.file? = some ⟨serial, content⟩ := by
        rw [file?, show w.conn.fileFd = some fd from hfd]
        exact hfile
      rw [unsent, hfile']
      exact if_pos hsending
    rw [hrest, List.drop_eq_nil_iff] at hunsent
    have htotal : w.conn.fileTotalSize = content.length := htotal
    have hlt : w.conn.fileSentOffset < w.conn.fileTotalSize := hlt
    omega
  | done hsending hfd hcontent hfreed => exact ⟨hfreed, hfd, hsending⟩

/-! ## Runs -/

/-- In every such run the bytes sent and unsent make up the file. -/
theorem carries_of_run {serial : Nat} {content : Bytes} {as : List Action}
    (hsound : u.view.Sound) (hcarries : u.desk.Carries serial content)
    (h : Run step SameFile u as w) :
    w.view.closed ∨ w.desk.Carries serial content ∧
      sentFile w.trace ++ w.unsent = sentFile u.trace ++ u.unsent := by
  refine (h.invariant (I := fun w => w.view.Sound ∧ (w.view.closed ∨ w.desk.Carries serial content ∧
    sentFile w.trace ++ w.unsent = sentFile u.trace ++ u.unsent))
    ⟨hsound, .inr ⟨hcarries, rfl⟩⟩ ?_).2
  rintro t a t' ⟨hsound, hstate⟩ hfile hstep
  have he := effect_of_step hsound.sized hstep
  refine ⟨sound_effect hsound he, ?_⟩
  rcases hstate with hclosed | ⟨hcarries, hbytes⟩
  · exact .inl (closed_of_step hsound.sized hclosed hstep)
  · rcases carries_step hcarries hfile hstep with hclosed | hcarries
    · exact .inl hclosed
    · refine (sentFile_effect hfile he).imp id fun hsame => ⟨hcarries, ?_⟩
      rw [← hbytes, ← sentFile_filter t.trace, ← sentFile_filter t'.trace]
      exact hsame

/-- Where no message is sent, what was written and what waits stay the same. -/
theorem line_of_run {as : List Action} (hsound : u.view.Sound)
    (h : Run step (fun w a => w.SameFile a ∧ w.NoMessage a) u as w) :
    w.view.closed ∨ w.view.line = u.view.line := by
  refine (h.invariant (I := fun w => w.view.Sound ∧ (w.view.closed ∨ w.view.line = u.view.line))
    ⟨hsound, .inr rfl⟩ ?_).2
  rintro t a t' ⟨hsound, hstate⟩ ⟨hfile, hmessage⟩ hstep
  have he := effect_of_step hsound.sized hstep
  refine ⟨sound_effect hsound he, ?_⟩
  rcases hstate with hclosed | hline
  · exact .inl (closed_of_step hsound.sized hclosed hstep)
  · exact (line_effect hfile hmessage he).imp id fun hsame => hsame.trans hline

/-- What holds of a run from the step that opens a file to a state in which the connection is open,
when no other file is opened: the bytes of the file go to the kernel in order and once, behind what
was buffered if no message is taken; with the buffer empty the transfer is stalled exactly if the
file is empty; and when the last byte of any other file has been sent the transfer is over. -/
theorem transfer_of_run {fd : Nat} {callbacks : Callback → Bool} {disk : Bytes → Bytes}
    {before after : List Action} {env : Env} {filePath : Bytes}
    (hrun : Run step anyStep (start fd callbacks disk) before v)
    (htodo : v.todo = some (.sendFileInLoop filePath)) (hopens : v.opensFile (.run env) = true)
    (hstep : v.step (.run env) = some u) (hafter : Run step SameFile u after w) (hopen : w.IsOpen) :
    sentFile w.trace ++ w.unsent = sentFile v.trace ++ disk filePath ∧
    (Run step NoMessage u after w →
      handed w.trace ++ (w.conn.writeBuffer.readable ++ w.unsent) =
        handed v.trace ++ (v.conn.writeBuffer.readable ++ disk filePath)) ∧
    (w.conn.writeBuffer.readable = [] → (w.Stalled ↔ disk filePath = [])) ∧
    (disk filePath ≠ [] → sentFile w.trace = sentFile v.trace ++ disk filePath →
      w.TransferOver v.files.born) := by
  have hopened := hrun.snoc trivial hstep
  have hnot := hopen.not_closed
  obtain ⟨-, rfl⟩ := sound_view_of_run hrun
  obtain ⟨hcarries, hview⟩ := opened_of_step htodo hopens hstep
  have hunsent : u.unsent = v.disk filePath := congrArg View.unsent hview
  have hsent : sentFile u.trace = sentFile v.trace := by
    rw [← sentFile_filter u.trace, ← sentFile_filter v.trace]
    rw [show u.trace.filter Event.isOutput = _ from congrArg View.trace hview, sentFile_concat]
    exact List.append_nil _
  have hline :
      u.view.line = handed v.trace ++ (v.conn.writeBuffer.readable ++ v.disk filePath) := by
    rw [← handed_filter v.trace, View.line, hview, handed_concat]
    simp [Event.wroteBytes, Event.sentBytes, view]
  obtain ⟨hcarries, hbytes⟩ :=
    (carries_of_run (sound_view_of_run hopened).1 hcarries hafter).resolve_left hnot
  rw [hsent, hunsent] at hbytes
  refine ⟨hbytes, fun hmessages => ?_, fun hbuffered => stalled_iff hcarries hbuffered,
    fun hcontent hall => ?_⟩
  · have h := (line_of_run (sound_view_of_run hopened).1 (hafter.and hmessages)).resolve_left hnot
    rw [hline, View.line, List.append_assoc] at h
    rw [← handed_filter]
    exact h
  · have hnone : w.unsent = [] := by
      rw [hall] at hbytes
      exact List.append_right_eq_self.mp hbytes
    obtain ⟨hfreed, hfd, hsending⟩ := done_of_unsent hcarries hcontent hnone
    have hwriting := (send_of_run (hopened.append hafter.toAny) hopen).2.1
    refine ⟨hfreed, ?_, hfd, hsending, fun hbuffered => ?_⟩
    · intro a file hlive hserial
      exact w.files.live_notMem hlive (hserial ▸ hfreed)
    · rw [Bool.eq_false_iff, ne_eq, hwriting, hbuffered, hsending]
      simp


/-- A header of which one byte has been written, when a file is sent behind it. -/
def headerWritten : List Action :=
  establishing ++ [.call (.send [10, 11]), .run { timer := 2, write := .done 1 },
    .call (.sendFile [20, 21, 22])]

/-- The rest of the header is written, and the file is sent in two parts. -/
def fileByParts : List Action :=
  [.ret] ++ writeable 2 (.done 9) .again ++
  [.ret, .resume { timer := 1, sendfile := .done 2 }, .doPendingFuncs] ++
  writeable 1 .again (.done 9)

/-- A file of three bytes behind a header, sent in two parts. -/
theorem transfer_of_run_fileByParts :
    ∃ v u w, Run step anyStep (start 7 (fun _ => true) id) headerWritten v ∧
      v.step (.run { timer := 2, opened := .opened 5 }) = some u ∧
      Run step SameFile u fileByParts w ∧
      handed w.trace ++ (w.conn.writeBuffer.readable ++ w.unsent) = [10, 11, 20, 21, 22] ∧
      ¬w.Stalled ∧ w.TransferOver v.files.born := by
  have hv : ((replay step anyStep (start 7 (fun _ => true) id) headerWritten).bind fun v =>
      (v.step (.run { timer := 2, opened := .opened 5 })).bind fun u =>
        (replay step (fun w a => SameFile w a ∧ NoMessage w a) u fileByParts).map
          fun w => decide (v.todo = some (.sendFileInLoop [20, 21, 22]) ∧
            v.opensFile (.run { timer := 2, opened := .opened 5 }) = true ∧
            handed v.trace = [10] ∧ v.conn.writeBuffer.readable = [11] ∧
            sentFile v.trace = [] ∧ sentFile w.trace = [20, 21, 22] ∧
            w.conn.writeBuffer.readable = [] ∧ w.conn.state = .kConnected ∧ w.aborted = false)) =
      some true := by
    decide +kernel
  obtain ⟨v, hbefore, hv⟩ := Option.bind_eq_some_iff.mp hv
  obtain ⟨u, hstep, hu⟩ := Option.bind_eq_some_iff.mp hv
  obtain ⟨w, hafter, hw⟩ := Option.map_eq_some_iff.mp hu
  obtain ⟨htodo, hopens, hhanded, hreadable, hsent, hall, hempty, hstate, hlive⟩ :=
    of_decide_eq_true hw
  have hboth := Run.of_replay hafter
  have hfile : Run step SameFile u fileByParts w := hboth.mono fun _ _ h => h.1
  obtain ⟨-, hline, hstalled, hover⟩ := transfer_of_run (.of_replay hbefore) htodo hopens hstep
    hfile ⟨.inl hstate, hlive⟩
  refine ⟨v, u, w, .of_replay hbefore, hstep, hfile, ?_, ?_, ?_⟩
  · rw [hline (hboth.mono fun _ _ h => h.2), hhanded, hreadable]
    rfl
  · rw [hstalled hempty]
    exact List.cons_ne_nil _ _
  · exact hover (List.cons_ne_nil _ _) (by rw [hall, hsent]; rfl)

/-- An empty file is sent, and the socket becomes writeable. -/
def emptyFile : List Action :=
  establishing ++ [.call (.sendFile [1]), .run { timer := 2, opened := .opened 5 }, .ret] ++
  writeable 2 .again (.done 9)

/-- Behind a `handleWrite` with nothing left to send the transfer goes on, with `EPOLLOUT` on. -/
theorem empty_file_stalls :
    ∃ w, Run step anyStep (start 7 (fun _ => true) fun _ => []) emptyFile w ∧ w.IsOpen ∧
      w.idle = true ∧ w.Stalled ∧ w.conn.channel.isWriting = true := by
  have hreplay : (replay step anyStep (start 7 (fun _ => true) fun _ => []) emptyFile).map
      (fun w => decide (w.conn.state = .kConnected ∧ w.aborted = false ∧ w.idle = true ∧
        w.Stalled ∧ w.conn.channel.isWriting = true)) = some true := by
    decide +kernel
  obtain ⟨w, hw, he⟩ := Option.map_eq_some_iff.mp hreplay
  obtain ⟨hstate, hlive, hidle, hstalled, hwriting⟩ := of_decide_eq_true he
  exact ⟨w, .of_replay hw, ⟨.inl hstate, hlive⟩, hidle, hstalled, hwriting⟩

end TcpLoop

end ClearMoon.Tcp
