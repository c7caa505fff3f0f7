import RuntimeScriptProfiler.Log.Stdio

/-!
# The debug log

The static state of `IDebugLog` and the members the plugin reaches through
`_MESSAGE`, `Indent`, `Outdent` and `SetAutoFlush`. No modelled path sets a
message source, so the header text keeps its initial empty value, and the
source buffer is left out.

`msg_spec` says once what a call of `_MESSAGE` does to a log at the start of a
line (`AtLineStart`): the calls it makes on the file are `lineWrites`, with flushes
exactly when `autoFlush` is set, and the log is at the start of a line again. The
developments above this file use that lemma and never unfold the log. A log
whose file did not open writes nothing (`logFile_log_of_none`).
-/

namespace RuntimeScriptProfiler

/-- The log levels, most severe first. -/
inductive LogLevel where
  | fatalError | error | warning | message | verboseMessage | debugMessage
  deriving DecidableEq

/-- The numeric value of a level. -/
def LogLevel.toNat : LogLevel → ℕ
  | fatalError => 0
  | error => 1
  | warning => 2
  | message => 3
  | verboseMessage => 4
  | debugMessage => 5

/-- The static members of `IDebugLog`, with what it has put on the console. -/
structure IDebugLog (D : Type) where
  logFile : Option (FILE D)
  headerText : String
  formatBuf : Message D
  indentLevel : Int32
  cursorPos : Int32
  inBlock : Bool
  autoFlush : Bool
  logLevel : LogLevel
  printLevel : LogLevel
  stdout : List (Message D)
  deriving DecidableEq

namespace IDebugLog

variable {D : Type} [PrintfDouble D]

/-- The initial values of the static members. -/
def statics (D : Type) : IDebugLog D where
  logFile := none
  headerText := ""
  formatBuf := .text ""
  indentLevel := 0
  cursorPos := 0
  inBlock := false
  autoFlush := true
  logLevel := .debugMessage
  printLevel := .message
  stdout := []

/-- The names `Open` tries, in order: the path itself, then `path0` to `path4`. -/
def names (path : String) : List String :=
  path :: (List.range 5).map fun id => path ++ toString id

/-- `Open`, `fsopen` being the file system's answer for each name. -/
def openLog (fsopen : String → Bool) (path : String) (g : IDebugLog D) : IDebugLog D :=
  { g with logFile := ((names path).find? fsopen).map FILE.fresh }

/-- The number of spaces a tab would occupy at a cursor position. -/
def tabSize (cursorPos : Int32) : Int32 := (~~~cursorPos &&& 3) + 1

/-- `RoundToTab`: up to the next stop, be it the nearest or not. -/
def roundToTab (spaces : Int32) : Int32 := (spaces + 3) &&& ~~~3

/-- The characters the loop of `PrintSpaces` puts out for `n` spaces, a tab
standing for `tab` of them. -/
def spaceRun (tab : ℕ) : ℕ → List Char
  | 0 => []
  | n + 1 =>
    if 0 < tab ∧ tab ≤ n + 1 then '\t' :: spaceRun tab (n + 1 - tab) else ' ' :: spaceRun tab n
termination_by n => n
decreasing_by all_goals omega

/-- `PrintSpaces`. -/
def printSpaces (numSpaces : Int32) (g : IDebugLog D) : IDebugLog D :=
  let run := spaceRun (tabSize g.cursorPos).toInt.toNat numSpaces.toInt.toNat
  { g with
    logFile := g.logFile.map fun f => f.does (run.map FileOp.fputc)
    cursorPos := g.cursorPos + numSpaces }

/-- The cursor after one character of text. -/
def advance (cursorPos : Int32) (data : Char) : Int32 :=
  if data = '\t' then cursorPos + tabSize cursorPos else cursorPos + 1

/-- `PrintText`. -/
def printText (buf : Buf D) (g : IDebugLog D) : IDebugLog D :=
  { g with
    logFile := g.logFile.map fun f =>
      f.does ([.fputs buf] ++ if g.autoFlush then [.fflush] else [])
    cursorPos := buf.chars.foldl advance g.cursorPos }

/-- `NewLine`. -/
def newLine (g : IDebugLog D) : IDebugLog D :=
  { g with
    logFile := g.logFile.map fun f =>
      f.does ([.fputc '\n'] ++ if g.autoFlush then [.fflush] else [])
    cursorPos := 0 }

/-- `SeekCursor`. -/
def seekCursor (position : Int32) (g : IDebugLog D) : IDebugLog D :=
  if g.cursorPos < position then g.printSpaces (position - g.cursorPos) else g

/-- `Message`, called without a source. -/
def message (m : Message D) (g : IDebugLog D) : IDebugLog D :=
  let g :=
    -- inside a block the header is on the file already
    if g.inBlock then
      g.seekCursor (roundToTab (g.indentLevel * 4 + Int32.ofNat g.headerText.length))
    else
      (g.seekCursor (g.indentLevel * 4)).printText (.headerText g.headerText)
  (g.printText (.formatBuf m)).newLine

/-- `Log`: format the message, write it to the file and echo it, each when its level
asks for it. -/
def log (level : LogLevel) (m : Message D) (g : IDebugLog D) : IDebugLog D :=
  let log : Bool := level.toNat ≤ g.logLevel.toNat
  let print : Bool := level.toNat ≤ g.printLevel.toNat
  -- one buffer serves the file and the console
  let g := if log || print then { g with formatBuf := m } else g
  let g := if log then g.message g.formatBuf else g
  if print then { g with stdout := g.stdout ++ [g.formatBuf] } else g

/-- `_MESSAGE`. -/
def msg (m : Message D) (g : IDebugLog D) : IDebugLog D := g.log .message m

/-- `Indent`. -/
def indent (g : IDebugLog D) : IDebugLog D := { g with indentLevel := g.indentLevel + 1 }

/-- `Outdent`. -/
def outdent (g : IDebugLog D) : IDebugLog D :=
  if g.indentLevel = 0 then g else { g with indentLevel := g.indentLevel - 1 }

/-- `SetAutoFlush`. -/
def setAutoFlush (inAutoFlush : Bool) (g : IDebugLog D) : IDebugLog D :=
  { g with autoFlush := inAutoFlush }

/-- The messages on the log's file. -/
def lines (g : IDebugLog D) : List (Message D) :=
  match g.logFile with
  | some f => f.lines
  | none => []

/-! ### What one message does -/

/-- The log stands at the start of a line of its open file `f`, outside any block
and not indented. -/
structure AtLineStart (g : IDebugLog D) (f : FILE D) : Prop where
  logFile : g.logFile = some f
  headerText : g.headerText = ""
  indentLevel : g.indentLevel = 0
  cursorPos : g.cursorPos = 0
  inBlock : g.inBlock = false
  logLevel : g.logLevel = .debugMessage
  printLevel : g.printLevel = .message

omit [PrintfDouble D] in
theorem AtLineStart.lines {g : IDebugLog D} {f : FILE D} (h : g.AtLineStart f) :
    g.lines = f.lines := by
  rw [IDebugLog.lines, h.logFile]

omit [PrintfDouble D] in
/-- Setting `autoFlush` leaves the log where it stands. -/
theorem AtLineStart.setAutoFlush {g : IDebugLog D} {f : FILE D} (h : g.AtLineStart f)
    (b : Bool) : (g.setAutoFlush b).AtLineStart f :=
  ⟨h.logFile, h.headerText, h.indentLevel, h.cursorPos, h.inBlock, h.logLevel,
    h.printLevel⟩

omit [PrintfDouble D] in
/-- Indenting and outdenting around a change of `autoFlush` leaves the log where it
stands. -/
theorem AtLineStart.indent_outdent {g : IDebugLog D} {f : FILE D} (h : g.AtLineStart f)
    (b : Bool) : ((g.indent.setAutoFlush b).outdent).AtLineStart f := by
  -- one level in, so that `outdent` is not at its lower end
  have hindent : (g.indent.setAutoFlush b).indentLevel = 1 := by
    simp [IDebugLog.indent, IDebugLog.setAutoFlush, h.indentLevel]
  unfold outdent
  rw [if_neg (by rw [hindent]; decide)]
  refine ⟨h.logFile, h.headerText, ?_, h.cursorPos, h.inBlock, h.logLevel, h.printLevel⟩
  rw [hindent]
  rfl

omit [PrintfDouble D] in
@[simp] theorem autoFlush_outdent (b : Bool) (g : IDebugLog D) :
    ((g.setAutoFlush b).outdent).autoFlush = b := by
  unfold outdent
  split <;> rfl

omit [PrintfDouble D] in
@[simp] theorem logFile_outdent (g : IDebugLog D) : g.outdent.logFile = g.logFile := by
  unfold outdent
  split <;> rfl

omit [PrintfDouble D] in
/-- A freshly constructed log is at the start of its file. -/
theorem atLineStart_statics (f : FILE D) :
    ({ statics D with logFile := some f } : IDebugLog D).AtLineStart f :=
  ⟨rfl, rfl, rfl, rfl, rfl, rfl, rfl⟩

@[simp] theorem autoFlush_printText (buf : Buf D) (g : IDebugLog D) :
    (g.printText buf).autoFlush = g.autoFlush := rfl

omit [PrintfDouble D] in
@[simp] theorem autoFlush_newLine (g : IDebugLog D) : g.newLine.autoFlush = g.autoFlush := rfl

omit [PrintfDouble D] in
@[simp] theorem autoFlush_seekCursor (position : Int32) (g : IDebugLog D) :
    (g.seekCursor position).autoFlush = g.autoFlush := by
  unfold seekCursor
  split <;> rfl

@[simp] theorem autoFlush_message (m : Message D) (g : IDebugLog D) :
    (g.message m).autoFlush = g.autoFlush := by
  unfold message
  cases g.inBlock <;> simp

@[simp] theorem autoFlush_log (level : LogLevel) (m : Message D) (g : IDebugLog D) :
    (g.log level m).autoFlush = g.autoFlush := by
  simp only [log]
  split <;> split <;> split <;> simp

@[simp] theorem autoFlush_msg (m : Message D) (g : IDebugLog D) :
    (g.msg m).autoFlush = g.autoFlush := autoFlush_log _ m g

/-- `Message` at the start of a line writes one line, flushing its pieces when
`autoFlush` is set, and returns to the start of a line. -/
theorem message_spec {g : IDebugLog D} {f : FILE D} (h : g.AtLineStart f)
    (m : Message D) : (g.message m).AtLineStart (f.does (lineWrites g.autoFlush m)) := by
  obtain ⟨hFile, hHeader, hIndent, hCursor, hBlock, hLog, hPrint⟩ := h
  have hseek : g.seekCursor (g.indentLevel * 4) = g := by
    -- the cursor is already at column 0, where an unindented line starts
    unfold seekCursor
    rw [if_neg]
    rw [hCursor, hIndent]
    decide
  -- what is left is the empty header, the message and the newline
  have hmessage : g.message m
      = ((g.printText (.headerText "")).printText (.formatBuf m)).newLine := by
    unfold message
    rw [if_neg (by rw [hBlock]; exact Bool.false_ne_true), hseek, hHeader]
  rw [hmessage]
  refine ⟨?_, hHeader, hIndent, rfl, hBlock, hLog, hPrint⟩
  simp only [newLine, printText, hFile, Option.map_some, FILE.does_does]
  cases g.autoFlush <;> rfl

/-- **What `_MESSAGE` does.** Both levels admit it, so it is `Message`, with an echo to
the console. -/
theorem msg_spec {g : IDebugLog D} {f : FILE D} (h : g.AtLineStart f)
    (m : Message D) : (g.msg m).AtLineStart (f.does (lineWrites g.autoFlush m)) := by
  have hlog : LogLevel.message.toNat ≤ g.logLevel.toNat := by rw [h.logLevel]; decide
  have hprint : LogLevel.message.toNat ≤ g.printLevel.toNat := by rw [h.printLevel]
  -- filling the format buffer does not move the log
  have hformat : ({ g with formatBuf := m } : IDebugLog D).AtLineStart f :=
    ⟨h.logFile, h.headerText, h.indentLevel, h.cursorPos, h.inBlock, h.logLevel,
      h.printLevel⟩
  have hmsg := message_spec hformat m
  simp only [msg, log, hlog, hprint, decide_true, Bool.or_self, if_true]
  exact ⟨hmsg.logFile, hmsg.headerText, hmsg.indentLevel, hmsg.cursorPos, hmsg.inBlock,
    hmsg.logLevel, hmsg.printLevel⟩

/-- A log whose file did not open writes nothing. -/
theorem logFile_log_of_none {g : IDebugLog D} (h : g.logFile = none) (level : LogLevel)
    (m : Message D) : (g.log level m).logFile = none := by
  -- no member of the log opens a file
  have hprint : ∀ (buf : Buf D) (g : IDebugLog D), g.logFile = none →
      (g.printText buf).logFile = none := by
    intro buf g hg
    simp [printText, hg]
  have hseek : ∀ (position : Int32) (g : IDebugLog D), g.logFile = none →
      (g.seekCursor position).logFile = none := by
    intro position g hg
    unfold seekCursor
    split
    · simp [printSpaces, hg]
    · exact hg
  have hmessage : ∀ (m : Message D) (g : IDebugLog D), g.logFile = none →
      (g.message m).logFile = none := by
    intro m g hg
    have hhead : (if g.inBlock then
          g.seekCursor (roundToTab (g.indentLevel * 4 + Int32.ofNat g.headerText.length))
        else (g.seekCursor (g.indentLevel * 4)).printText (.headerText g.headerText)).logFile
        = none := by
      split
      · exact hseek _ g hg
      · exact hprint _ _ (hseek _ g hg)
    simp [message, newLine, hprint _ _ hhead]
  simp only [log]
  split <;> split <;> split <;> first | exact h | exact hmessage _ _ h

end IDebugLog

end RuntimeScriptProfiler
