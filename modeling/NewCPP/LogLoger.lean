import NewCPP.DatFileReader
import NewCPP.Library.CharString

/-!
# Following a log file

`log_loger` reads the whole file at each update and keeps what it read before; the new data
are what is left of the file without them.

* `follow_eq` — one read after each update gives what was appended in between, and a blank
  where nothing was; so the reads together are the file if and only if it grew every time.

## Design notes

**The file.**  It is there when the loger is constructed and grows only.  What is appended
between two updates comes in any number of pieces.

**The stream.**  `ReadWholeLog` moves through the buffer of the stream, which leaves the
state bits alone.

**Erasing.**  The old content is looked for in the new one and taken out where it occurs first;
a log that grows has it at the beginning.  A read of nothing new gives a blank instead of
nothing, which is the whole difference between the reads and the file.

**Histories.**  `LogEvent` are the appends and the updates with their reads, in any order, and
`results` are what a read after each update returns.
-/

namespace NewCPP

open Library Library.CharString

/-- The content of the log, the one before, and the file. -/
structure LogLoger where
  logContent : List CChar := []
  logContentOld : List CChar := []
  logFile : IFStream

namespace LogLoger

/-- The constructor, on a file with this content. -/
def new (file : List CChar) : LogLoger where
  logFile := { content := file }

/-- `" "`. -/
def blank : List CChar :=
  [32]

/-- The new content without the old one, where that occurs in it. -/
def eraseOldContent (ActualData OldContent : List CChar) : List CChar :=
  if OldContent = ActualData then blank
  else
    match find OldContent ActualData with
    | some position =>
        ActualData.take position ++ ActualData.drop (position + OldContent.length)
    | none => ActualData

/-- `ReadWholeLog`, when the file has this content. -/
def readWholeLog (file : List CChar) (loger : LogLoger) : LogLoger :=
  if loger.logFile.good then
    let logFile := ({ loger.logFile with content := file }.seekg file.length).seekg 0
    { loger with
      logContent := file.drop logFile.position
      logFile := { logFile with position := file.length } }
  else loger

/-- What was added since the last update, if the log got longer. -/
def readNewData (loger : LogLoger) : List CChar :=
  if loger.logContent.length > loger.logContentOld.length then
    eraseOldContent loger.logContent loger.logContentOld
  else blank

/-- The file is read again, and what was read before becomes the old content. -/
def updateData (file : List CChar) (loger : LogLoger) : LogLoger :=
  readWholeLog file { loger with logContentOld := loger.logContent }

end LogLoger

/-! ## Histories -/

/-- What happens to the file and to its loger. -/
inductive LogEvent where
  | append (bytes : List CChar)
  | updateData

namespace LogLoger

/-- The results of `ReadNewData`, called once after each update. -/
def results : List LogEvent → List CChar → LogLoger → List (List CChar)
  | [], _, _ => []
  | .append bytes :: events, file, loger => results events (file ++ bytes) loger
  | .updateData :: events, file, loger =>
      let loger := loger.updateData file
      loger.readNewData :: results events file loger

/-- The same with the first read after `ReadWholeLog`. -/
def follow (file : List CChar) (events : List LogEvent) : List (List CChar) :=
  let loger := (new file).readWholeLog file
  loger.readNewData :: results events file loger

/-- What was appended between each two updates; `pending` has come since the last one. -/
def increments : List LogEvent → List CChar → List (List CChar)
  | [], _ => []
  | .append bytes :: events, pending => increments events (pending ++ bytes)
  | .updateData :: events, pending => pending :: increments events []

/-- The content of the file at the last update. -/
def lastContent : List LogEvent → List CChar → List CChar → List CChar
  | [], _, seen => seen
  | .append bytes :: events, file, seen => lastContent events (file ++ bytes) seen
  | .updateData :: events, file, _ => lastContent events file file

/-- What a read gives of an increment. -/
def shown (increment : List CChar) : List CChar :=
  if increment = [] then blank else increment

/-! ## One read -/

/-- A loger whose stream has met no error. -/
def Opened (loger : LogLoger) : Prop :=
  loger.logFile.eofbit = false ∧ loger.logFile.failbit = false

theorem opened_new (file : List CChar) : (new file).Opened :=
  ⟨rfl, rfl⟩

/-- The content is that of the file. -/
theorem readWholeLog_of_opened {loger : LogLoger} (h : loger.Opened) (file : List CChar) :
    readWholeLog file loger =
      { loger with
        logContent := file
        logFile := { loger.logFile with content := file, position := file.length } } := by
  obtain ⟨content, old, stream, position, eofbit, failbit⟩ := loger
  obtain ⟨rfl, rfl⟩ := h
  rfl

/-- An update keeps what was read before. -/
theorem updateData_of_opened {loger : LogLoger} (h : loger.Opened) (file : List CChar) :
    loger.updateData file =
      { logContent := file
        logContentOld := loger.logContent
        logFile := { loger.logFile with content := file, position := file.length } } := by
  obtain ⟨content, old, stream, position, eofbit, failbit⟩ := loger
  obtain ⟨rfl, rfl⟩ := h
  rfl

/-- What was there is a front of what is there now, and the search finds it at the front. -/
theorem eraseOldContent_append (OldContent increment : List CChar) :
    eraseOldContent (OldContent ++ increment) OldContent = shown increment := by
  by_cases hnil : increment = []
  · subst hnil
    rw [List.append_nil, eraseOldContent, if_pos rfl]
    rfl
  · have hne : OldContent ≠ OldContent ++ increment := by
      rwa [Ne, List.self_eq_append_right]
    have hfind : find OldContent (OldContent ++ increment) = some 0 :=
      (find_eq_zero_iff _ _).2 (List.prefix_append _ _)
    rw [eraseOldContent, if_neg hne, hfind, shown, if_neg hnil]
    simp only [List.take_zero, List.nil_append, Nat.zero_add, List.drop_left]

/-- What was appended is shown. -/
theorem readNewData_of_append {loger : LogLoger} {increment : List CChar}
    (h : loger.logContent = loger.logContentOld ++ increment) :
    loger.readNewData = shown increment := by
  rw [readNewData, h, eraseOldContent_append, List.length_append]
  split
  · rfl
  · rename_i hlength
    have hnil : increment = [] := by
      rw [← List.length_eq_zero_iff]
      omega
    rw [hnil]
    rfl

/-! ## All reads -/

/-- In every history the results are the increments, as they are shown. -/
theorem results_eq (events : List LogEvent) : ∀ {file pending : List CChar} {loger : LogLoger},
    loger.Opened → file = loger.logContent ++ pending →
      results events file loger = (increments events pending).map shown := by
  induction events with
  | nil => exact fun _ _ => rfl
  | cons event events ih =>
      intro file pending loger hopened hfile
      cases event with
      | append bytes =>
          refine ih hopened ?_
          rw [hfile, List.append_assoc]
      | updateData =>
          rw [results, increments, List.map_cons, updateData_of_opened hopened]
          refine congrArg₂ List.cons (readNewData_of_append hfile) (ih ?_ ?_)
          · exact hopened
          · exact (List.append_nil file).symm

/-- The increments make up the file. -/
theorem append_flatten_increments (events : List LogEvent) :
    ∀ {file seen pending : List CChar}, file = seen ++ pending →
      seen ++ (increments events pending).flatten = lastContent events file seen := by
  induction events with
  | nil => exact fun _ => List.append_nil _
  | cons event events ih =>
      intro file seen pending hfile
      cases event with
      | append bytes =>
          refine ih ?_
          rw [hfile, List.append_assoc]
      | updateData =>
          rw [increments, List.flatten_cons, ← List.append_assoc, ← hfile]
          exact ih (List.append_nil file).symm

/-- Each empty increment costs a blank. -/
theorem length_flatten_shown (increments : List (List CChar)) :
    (increments.map shown).flatten.length =
      increments.flatten.length + increments.countP (· = []) := by
  induction increments with
  | nil => rfl
  | cons increment increments ih =>
      rw [List.map_cons, List.flatten_cons, List.flatten_cons, List.length_append,
        List.length_append, ih, List.countP_cons]
      by_cases hnil : increment = []
      · simp [hnil, shown, blank]
        omega
      · simp [hnil, shown]
        omega

/-- The results put together are the log if there was always something new. -/
theorem flatten_shown_eq_iff (increments : List (List CChar)) :
    (increments.map shown).flatten = increments.flatten ↔
      ∀ increment ∈ increments, increment ≠ [] := by
  constructor
  · intro heq
    have hlength := length_flatten_shown increments
    rw [heq] at hlength
    have hcount : increments.countP (· = []) = 0 := by omega
    simpa [List.countP_eq_zero] using hcount
  · intro hall
    refine congrArg List.flatten ((List.map_congr_left fun increment hmem => ?_).trans
      (List.map_id increments))
    rw [shown, if_neg (hall increment hmem)]
    rfl

/-- **What following a log file gives.**  The first read gives the file, each further one
what was appended since the read before, and each gives a blank if that is nothing.  The
increments make up the file as of the last update, and the reads do so if and only if none
of them is empty. -/
theorem follow_eq (file : List CChar) (events : List LogEvent) :
    follow file events = (file :: increments events []).map shown ∧
      (file :: increments events []).flatten = lastContent events file file ∧
      ((follow file events).flatten = lastContent events file file ↔
        ∀ increment ∈ file :: increments events [], increment ≠ []) := by
  have hread := readWholeLog_of_opened (opened_new file) file
  have hfollow : follow file events = (file :: increments events []).map shown := by
    rw [follow, List.map_cons, hread]
    exact congrArg₂ List.cons (readNewData_of_append rfl)
      (results_eq events (opened_new file) (List.append_nil file).symm)
  have hcontent : (file :: increments events []).flatten = lastContent events file file :=
    append_flatten_increments events (List.append_nil file).symm
  refine ⟨hfollow, hcontent, ?_⟩
  rw [hfollow, ← hcontent]
  exact flatten_shown_eq_iff _

/-- An update without anything new gives a blank that is not in the file. -/
theorem not_follow_unchanged : ¬∀ (file : List CChar) (events : List LogEvent),
    (follow file events).flatten = lastContent events file file := by
  intro h
  have hblank := h [97] [.updateData]
  revert hblank
  decide

end LogLoger

end NewCPP
