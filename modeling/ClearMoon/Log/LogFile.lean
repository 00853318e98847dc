import ClearMoon.Core.Log
import ClearMoon.Net.Buffer

/-!
# Log files

`AsyncLogger::write` keeps one file open and is to begin the next one of the day's sequence when
the file would outgrow `rollSize_`. The files of the host are a map from names to contents; every
file operation succeeds. What the logger has written is also recorded in order.
-/

namespace ClearMoon.Log

open ClearMoon.Net

/-- The members of `std::tm` that are printed. -/
structure Date where
  year : Nat
  month : Nat
  day : Nat
  deriving DecidableEq, Repr

def twoDigits (n : Nat) : String := if n < 10 then "0" ++ toString n else toString n

/-- `std::put_time` with "%Y-%m-%d". -/
def Date.format (d : Date) : String :=
  toString d.year ++ "-" ++ twoDigits d.month ++ "-" ++ twoDigits d.day

/-- The members of `AsyncLogger` that `write` works on, and the files. -/
structure LogFile where
  name : String
  rollSize : Nat
  logDir : String
  /-- The file that `file_` has open. -/
  file : Option String := none
  lastData : String := ""
  currentFileName : String := ""
  sequence : Nat
  hasWritenBytes : Nat
  disk : String → Option Bytes
  /-- What was written, and to which file. -/
  written : List (String × Bytes) := []

namespace LogFile

/-- The members as the constructor leaves them: `sequence_` and `hasWritenBytes_` have no initial
value, and any files may be there. -/
def new (name : String) (rollSize : Nat) (logDir : String) (disk : String → Option Bytes)
    (sequence hasWritenBytes : Nat) : LogFile where
  name := name
  rollSize := rollSize
  logDir := logDir
  sequence := sequence
  hasWritenBytes := hasWritenBytes
  disk := disk

/-- `AsyncLogger::makeFileName`. -/
def makeFileName (l : LogFile) (data : String) : String :=
  l.logDir ++ "/" ++ data ++ "/" ++ l.name ++
    (if 0 < l.sequence then "." ++ toString l.sequence else "") ++ ".log"

/-- What stands in a file, and nothing if it is not there. -/
def content (l : LogFile) (fileName : String) : Bytes := (l.disk fileName).getD []

/-- `st_size` of a file. -/
def size (l : LogFile) (fileName : String) : Nat := (l.content fileName).length

/-- `file_.open` for appending, after `file_.close`. -/
def openFile (l : LogFile) (fileName : String) : LogFile :=
  { l with
    file := some fileName
    currentFileName := fileName
    disk := Function.update l.disk fileName (some (l.content fileName)) }

/-- A new day begins with the first file of its sequence. -/
def newDay (l : LogFile) (today : String) : LogFile :=
  if today ≠ l.lastData then
    { l with file := none, sequence := 0, hasWritenBytes := 0, lastData := today }
  else l

/-- `write` begins the next file of the sequence. -/
def roll (l : LogFile) (today : String) : LogFile :=
  let l := { l with sequence := l.sequence + 1 }
  { l.openFile (l.makeFileName today) with hasWritenBytes := 0 }

/-- `write` opens the file of the sequence and asks for its size. -/
def openAndStat (l : LogFile) (today : String) : LogFile :=
  let l := l.openFile (l.makeFileName today)
  { l with hasWritenBytes := l.size l.currentFileName }

/-- `write` opens the file that it is to write to. -/
def reopen (l : LogFile) (today : String) (len : Nat) : LogFile :=
  let l := l.openAndStat today
  if l.hasWritenBytes + len > l.rollSize ∧ l.hasWritenBytes > 0 then l.roll today else l

/-- `file_.write`. -/
def writeFile (l : LogFile) (data : Bytes) : LogFile :=
  match l.file with
  | none => l
  | some fileName =>
    { l with
      disk := Function.update l.disk fileName (some (l.content fileName ++ data))
      hasWritenBytes := l.hasWritenBytes + data.length
      written := l.written ++ [(fileName, data)] }

/-- The file that is open is not the one that `write` wants. -/
def mustOpen (l : LogFile) (today : String) : Bool :=
  l.file.isNone || l.currentFileName ≠ l.makeFileName today

/-- `AsyncLogger::write`. -/
def write (l : LogFile) (now : Date) (data : Bytes) : LogFile :=
  let today := now.format
  let l := l.newDay today
  let l := if l.mustOpen today then l.reopen today data.length else l
  l.writeFile data

/-- The bytes that were written, in order. -/
def bytes (l : LogFile) : Bytes := l.written.flatMap Prod.snd

variable {l : LogFile}

/-! ## The file that is written to -/

@[simp] theorem content_openFile (fileName f : String) :
    (l.openFile fileName).content f = l.content f := by
  rw [content, openFile]
  by_cases h : f = fileName
  · subst h
    simp
  · simp [h, content]

/-- The name of the open file is kept. -/
def Coherent (l : LogFile) : Prop := ∀ f ∈ l.file, l.currentFileName = f

/-- No file is open at first. -/
theorem coherent_new (name : String) (rollSize : Nat) (logDir : String)
    (disk : String → Option Bytes) (sequence hasWritenBytes : Nat) :
    (new name rollSize logDir disk sequence hasWritenBytes).Coherent := by
  simp [Coherent, new]

/-- There is room for `len` bytes in a file, or it is empty. -/
def HasRoom (l : LogFile) (f : String) (len : Nat) : Prop :=
  l.size f = 0 ∨ l.size f + len ≤ l.rollSize

instance (l : LogFile) (f : String) (len : Nat) : Decidable (l.HasRoom f len) := by
  unfold HasRoom
  infer_instance

/-- The name of the next file of the sequence. -/
def nextFileName (l : LogFile) (today : String) : String :=
  { l with sequence := l.sequence + 1 }.makeFileName today

/-- The file that a call of `write` on this day will write to. -/
def target (l : LogFile) (today : String) (len : Nat) : String :=
  if l.mustOpen today ∧ ¬l.HasRoom (l.makeFileName today) len then l.nextFileName today
  else l.makeFileName today

/-- Opening leaves the target open, and adds nothing to any file. -/
theorem reopen_spec {today : String} (h : l.mustOpen today = true) (len : Nat) :
    (l.reopen today len).file = some (l.target today len) ∧
      (l.reopen today len).currentFileName = l.target today len ∧
      (l.reopen today len).rollSize = l.rollSize ∧
      (∀ f, (l.reopen today len).content f = l.content f) ∧
      (l.reopen today len).written = l.written := by
  have hsize : (l.openAndStat today).hasWritenBytes = l.size (l.makeFileName today) :=
    congrArg List.length (content_openFile _ _)
  have hfull : ((l.openAndStat today).hasWritenBytes + len > (l.openAndStat today).rollSize ∧
      (l.openAndStat today).hasWritenBytes > 0) ↔ ¬l.HasRoom (l.makeFileName today) len := by
    rw [hsize, HasRoom, show (l.openAndStat today).rollSize = l.rollSize from rfl]
    omega
  rw [reopen, target]
  by_cases hroom : l.HasRoom (l.makeFileName today) len
  · rw [if_neg fun hc => hfull.mp hc hroom, if_neg fun hc => hc.2 hroom]
    exact ⟨rfl, rfl, rfl, content_openFile _, rfl⟩
  · rw [if_pos (hfull.mpr hroom), if_pos ⟨h, hroom⟩]
    exact ⟨rfl, rfl, rfl, fun f => (content_openFile _ f).trans (content_openFile _ f), rfl⟩

/-- `write` up to `file_.write`. -/
def prepare (l : LogFile) (today : String) (len : Nat) : LogFile :=
  let l := l.newDay today
  if l.mustOpen today then l.reopen today len else l

/-- A write chooses the file first. -/
theorem write_eq (l : LogFile) (now : Date) (data : Bytes) :
    l.write now data = (l.prepare now.format data.length).writeFile data := rfl

/-- A new day changes neither a file nor the limit. -/
theorem newDay_frame (l : LogFile) (today : String) :
    (l.newDay today).rollSize = l.rollSize ∧ (l.newDay today).disk = l.disk ∧
      (l.newDay today).written = l.written := by
  rw [newDay]
  split <;> exact ⟨rfl, rfl, rfl⟩

/-- On a new day the sequence begins anew. -/
theorem Coherent.newDay (h : l.Coherent) (today : String) : (l.newDay today).Coherent := by
  rw [LogFile.newDay]
  split
  · simp [Coherent]
  · exact h

/-- Whether it was open or had to be opened, the target of the day is open. -/
theorem prepare_spec (h : l.Coherent) (today : String) (len : Nat) :
    (l.prepare today len).file = some ((l.newDay today).target today len) ∧
      (l.prepare today len).currentFileName = (l.newDay today).target today len ∧
      (l.prepare today len).rollSize = l.rollSize ∧
      (∀ f, (l.prepare today len).content f = l.content f) ∧
      (l.prepare today len).written = l.written := by
  obtain ⟨hroll, hdisk, hwritten⟩ := l.newDay_frame today
  have hcontent (f : String) : (l.newDay today).content f = l.content f := by
    rw [content, hdisk, content]
  have hcoherent := h.newDay today
  rw [prepare]
  split
  · rename_i hopen
    obtain ⟨hfile, hname, hroll', hcontent', hwritten'⟩ := reopen_spec hopen len
    exact ⟨hfile, hname, hroll'.trans hroll, fun f => (hcontent' f).trans (hcontent f),
      hwritten'.trans hwritten⟩
  · rename_i hopen
    have htarget : (l.newDay today).target today len = (l.newDay today).makeFileName today :=
      if_neg fun hc => hopen hc.1
    simp only [mustOpen, Bool.or_eq_true, Option.isNone_iff_eq_none, decide_eq_true_eq,
      not_or, not_not] at hopen
    obtain ⟨f, hf⟩ := Option.ne_none_iff_exists'.mp hopen.1
    have hname := hcoherent f hf
    rw [htarget, ← hopen.2]
    exact ⟨hf.trans (congrArg some hname.symm), rfl, hroll, hcontent, hwritten⟩

/-- One call appends its bytes to its target and to nothing else. -/
theorem write_spec (h : l.Coherent) (now : Date) (data : Bytes) :
    let target := (l.newDay now.format).target now.format data.length
    (l.write now data).Coherent ∧ (l.write now data).currentFileName = target ∧
      (l.write now data).rollSize = l.rollSize ∧
      (∀ f, (l.write now data).content f = l.content f ++ if f = target then data else []) ∧
      (l.write now data).written = l.written ++ [(target, data)] := by
  obtain ⟨hfile, hname, hroll, hcontent, hwritten⟩ := prepare_spec h now.format data.length
  rw [write_eq, writeFile, hfile]
  dsimp only
  refine ⟨fun f hf => hname.trans (Option.some.inj hf), hname, hroll, fun f => ?_, ?_⟩
  · rw [← hcontent f, content]
    by_cases hf : f = (l.newDay now.format).target now.format data.length
    · subst hf
      simp
    · simp [hf, content]
  · rw [hwritten]

/-- The data goes behind everything written before. -/
theorem bytes_write (h : l.Coherent) (now : Date) (data : Bytes) :
    (l.write now data).bytes = l.bytes ++ data := by
  rw [bytes, (write_spec h now data).2.2.2.2]
  simp [bytes]

/-- The record is about the files: each holds what it held, and what was written to it since. -/
def Recorded (disk : String → Option Bytes) (l : LogFile) : Prop :=
  ∀ f, l.content f = (disk f).getD [] ++ (l.written.filter (·.1 = f)).flatMap Prod.snd

/-- At first the files are those of the disk. -/
theorem recorded_new (name : String) (rollSize : Nat) (logDir : String)
    (disk : String → Option Bytes) (sequence hasWritenBytes : Nat) :
    Recorded disk (new name rollSize logDir disk sequence hasWritenBytes) := by
  simp [Recorded, new, content]

/-- A write appends to one file, behind what the disk had in it. -/
theorem Recorded.write {disk : String → Option Bytes} (hr : Recorded disk l) (h : l.Coherent)
    (now : Date) (data : Bytes) : Recorded disk (l.write now data) := by
  obtain ⟨-, -, -, hcontent, hwritten⟩ := write_spec h now data
  intro f
  rw [hcontent, hwritten, hr f]
  by_cases hf : f = (l.newDay now.format).target now.format data.length
  · simp [hf]
  · simp [hf, Ne.symm hf]

/-! ## Rolling -/

/-- The calls of one day. -/
def writes (l : LogFile) (now : Date) (calls : List Bytes) : LogFile :=
  calls.foldl (fun l data => l.write now data) l

/-- The file that was written to is as large as it may be. -/
def Bounded (l : LogFile) (len : Nat) : Prop := l.size l.currentFileName ≤ max l.rollSize len

instance (l : LogFile) (len : Nat) : Decidable (l.Bounded len) := by
  unfold Bounded
  infer_instance

/-- There is room in the file of the day, or it is not open and there is room in the next one. -/
def FindsRoom (l : LogFile) (now : Date) (len : Nat) : Prop :=
  let today := now.format
  let l := l.newDay today
  l.HasRoom (l.makeFileName today) len ∨
    l.mustOpen today = true ∧ l.HasRoom (l.nextFileName today) len

instance (l : LogFile) (now : Date) (len : Nat) : Decidable (l.FindsRoom now len) := by
  unfold FindsRoom
  infer_instance

/-- A call keeps its file within the bound exactly if it finds room before. -/
theorem bounded_write_iff (h : l.Coherent) (now : Date) (data : Bytes) :
    (l.write now data).Bounded data.length ↔ l.FindsRoom now data.length := by
  obtain ⟨-, hname, hroll, hcontent, -⟩ := write_spec h now data
  obtain ⟨hroll', hdisk, -⟩ := l.newDay_frame now.format
  have hafter : (l.write now data).Bounded data.length ↔
      (l.newDay now.format).HasRoom ((l.newDay now.format).target now.format data.length)
        data.length := by
    have hsame (f : String) : (l.newDay now.format).size f = l.size f := by
      rw [size, content, hdisk, size, content]
    rw [Bounded, hname, size, hcontent, if_pos rfl, List.length_append, ← size, hroll, HasRoom,
      hroll', hsame]
    omega
  rw [hafter, FindsRoom, target]
  by_cases hroom : (l.newDay now.format).HasRoom ((l.newDay now.format).makeFileName now.format)
      data.length
  · rw [if_neg (by simp [hroom])]
    simp [hroom]
  · by_cases hopen : (l.newDay now.format).mustOpen now.format = true
    · rw [if_pos ⟨hopen, hroom⟩]
      simp [hroom, hopen]
    · rw [if_neg (by simp [hopen])]
      simp [hroom, hopen]

/-- So it is behind any number of writes. -/
theorem coherent_writes (h : l.Coherent) (now : Date) (calls : List Bytes) :
    (l.writes now calls).Coherent := by
  induction calls generalizing l with
  | nil => exact h
  | cons data calls ih => exact ih (write_spec h now data).1

/-- After each call of a day its file is within the bound, exactly if each call finds room. -/
theorem bounded_iff (name : String) (rollSize : Nat) (logDir : String)
    (disk : String → Option Bytes) (sequence hasWritenBytes : Nat) (now : Date)
    (calls : List Bytes) :
    let l := new name rollSize logDir disk sequence hasWritenBytes
    AtEvery (fun before data => (l.writes now (before ++ [data])).Bounded data.length) calls ↔
      AtEvery (fun before data => (l.writes now before).FindsRoom now data.length) calls := by
  have hone (before : List Bytes) (data : Bytes) :
      ((new name rollSize logDir disk sequence hasWritenBytes).writes now
        (before ++ [data])).Bounded data.length ↔
      ((new name rollSize logDir disk sequence hasWritenBytes).writes now before).FindsRoom now
        data.length := by
    rw [writes, List.foldl_append]
    exact bounded_write_iff (coherent_writes (coherent_new _ _ _ _ _ _) now before) now data
  exact ⟨fun h before data after he => (hone before data).mp (h before data after he),
    fun h before data after he => (hone before data).mpr (h before data after he)⟩

/-- A logger that rolls at ten bytes, with the given files in its directory. -/
def rollAtTen (disk : String → Option Bytes) : LogFile := new "app" 10 "logs" disk 0 0

/-- A file that is open is never left, and the next one of the sequence may be there already. -/
theorem outgrows_rollSize :
    ¬AtEvery (fun before data => ((rollAtTen fun _ => none).writes ⟨2024, 1, 2⟩
      (before ++ [data])).Bounded data.length) [[1, 2, 3, 4, 5, 6], [1, 2, 3, 4, 5, 6]] ∧
    ¬AtEvery (fun before data => ((rollAtTen fun _ => some (List.replicate 10 0)).writes
      ⟨2024, 1, 2⟩ (before ++ [data])).Bounded data.length) [[1, 2, 3]] := by
  constructor
  · intro h
    exact absurd (h [[1, 2, 3, 4, 5, 6]] [1, 2, 3, 4, 5, 6] [] rfl) (by decide +kernel)
  · intro h
    exact absurd (h [] [1, 2, 3] [] rfl) (by decide +kernel)

end LogFile

end ClearMoon.Log
