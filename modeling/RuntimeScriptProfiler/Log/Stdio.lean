import Mathlib.Data.List.Basic
import Mathlib.Data.List.DropRight

/-!
# Messages and the file they are written to

The part of the C runtime that the log goes through. `Message` is what a call of
`_MESSAGE` leaves in the log's format buffer, kept as its format string and
arguments: `Message.chars` is the text `vsprintf_s` makes of it. The numbers
printed are of a type `D` with a `%.<n>f` conversion (`PrintfDouble`), so that the
same hooks run over machine doubles and over exact numbers.

A `FILE` is the sequence of calls made on it. Its text, the lines of messages it
holds (`FILE.lines`) and what has not been flushed yet (`FILE.unflushed`) are all
read off that sequence.
-/

namespace RuntimeScriptProfiler

/-! ### Formatted messages -/

/-- The `%.<n>f` conversion of `printf` for a type of printed numbers. -/
class PrintfDouble (D : Type) where
  fixed : ℕ → D → String

/-- What `_MESSAGE` is called with: a constant text, the script entry format
`"%08X\t\t\t\t\t\t\t\t\t%.10f ms"` with its two arguments, or the frame separator
format with its one. -/
inductive Message (D : Type) where
  | text (s : String)
  | entry (refID : UInt32) (elapsedMs : D)
  | separator (elapsedMs : D)
  deriving DecidableEq

namespace Message

variable {D : Type}

/-- Is this a script entry? -/
def isEntry : Message D → Bool
  | entry _ _ => true
  | _ => false

/-- Is this a frame separator? -/
def isSeparator : Message D → Bool
  | separator _ => true
  | _ => false

@[simp] theorem isEntry_text (s : String) : (text s : Message D).isEntry = false := rfl
@[simp] theorem isEntry_entry (i : UInt32) (t : D) : (entry i t).isEntry = true := rfl
@[simp] theorem isEntry_separator (t : D) : (separator t).isEntry = false := rfl
@[simp] theorem isSeparator_text (s : String) : (text s : Message D).isSeparator = false := rfl
@[simp] theorem isSeparator_entry (i : UInt32) (t : D) :
    (entry i t).isSeparator = false := rfl
@[simp] theorem isSeparator_separator (t : D) : (separator t).isSeparator = true := rfl

/-- The `%08X` conversion: upper-case hexadecimal, at least eight digits. -/
def hex8 (n : UInt32) : List Char :=
  List.leftpad 8 '0' ((Nat.toDigits 16 n.toNat).map Char.toUpper)

/-- The text `vsprintf_s` leaves in the format buffer. -/
def chars [PrintfDouble D] : Message D → List Char
  | text s => s.toList
  | entry refID elapsedMs =>
    hex8 refID ++ List.replicate 9 '\t' ++ (PrintfDouble.fixed 10 elapsedMs ++ " ms").toList
  | separator elapsedMs =>
    List.replicate 82 '=' ++ (" " ++ PrintfDouble.fixed 10 elapsedMs ++ " ms").toList

end Message

/-! ### Files -/

/-- A buffer handed to `fputs`: the log's line header or its format buffer. -/
inductive Buf (D : Type) where
  | headerText (s : String)
  | formatBuf (m : Message D)
  deriving DecidableEq

/-- The text of a buffer. -/
def Buf.chars {D : Type} [PrintfDouble D] : Buf D → List Char
  | headerText s => s.toList
  | formatBuf m => m.chars

/-- The calls the log makes on its file. -/
inductive FileOp (D : Type) where
  | fputs (buf : Buf D)
  | fputc (c : Char)
  | fflush
  deriving DecidableEq

namespace FileOp

variable {D : Type}

/-- The text a call puts on the file. -/
def chars [PrintfDouble D] : FileOp D → List Char
  | fputs buf => buf.chars
  | fputc c => [c]
  | fflush => []

/-- The message a call puts on the file, if it is the one that writes the format
buffer. -/
def line? : FileOp D → Option (Message D)
  | fputs (.formatBuf m) => some m
  | _ => none

/-- Is this a flush? -/
def isFlush : FileOp D → Bool
  | fflush => true
  | _ => false

end FileOp

/-- A file opened for writing, as the calls made on it so far. -/
structure FILE (D : Type) where
  name : String
  ops : List (FileOp D)
  deriving DecidableEq

namespace FILE

variable {D : Type}

/-- A file just opened with mode `"w"`. -/
def fresh (name : String) : FILE D := ⟨name, []⟩

/-- Further calls on the file. -/
def does (f : FILE D) (ops : List (FileOp D)) : FILE D := { f with ops := f.ops ++ ops }

@[simp] theorem does_ops (f : FILE D) (ops : List (FileOp D)) :
    (f.does ops).ops = f.ops ++ ops := rfl

theorem does_does (f : FILE D) (xs ys : List (FileOp D)) :
    (f.does xs).does ys = f.does (xs ++ ys) := by
  simp [does]

@[simp] theorem does_nil (f : FILE D) : f.does [] = f := by
  simp [does]

/-- The text written to the file, flushed or not. -/
def chars [PrintfDouble D] (f : FILE D) : List Char := f.ops.flatMap FileOp.chars

/-- The messages written to the file, in order. -/
def lines (f : FILE D) : List (Message D) := f.ops.filterMap FileOp.line?

/-- The calls made since the last flush. -/
def unflushed (f : FILE D) : List (FileOp D) := f.ops.rtakeWhile fun op => !op.isFlush

@[simp] theorem lines_does (f : FILE D) (ops : List (FileOp D)) :
    (f.does ops).lines = f.lines ++ ops.filterMap FileOp.line? := by
  simp [lines]

end FILE

/-! ### One line -/

/-- The calls that write one message as a line with an empty header, each piece
followed by a flush when `flushed` is set. -/
def lineWrites {D : Type} (flushed : Bool) (m : Message D) : List (FileOp D) :=
  let flush : List (FileOp D) := if flushed then [.fflush] else []
  [.fputs (.headerText "")] ++ flush ++ [.fputs (.formatBuf m)] ++ flush ++
    [.fputc '\n'] ++ flush

section LineWrites

variable {D : Type}

@[simp] theorem filterMap_line?_lineWrites (flushed : Bool) (m : Message D) :
    (lineWrites flushed m).filterMap FileOp.line? = [m] := by
  cases flushed <;> rfl

theorem isFlush_of_mem_lineWrites {m : Message D} {op : FileOp D}
    (h : op ∈ lineWrites false m) : op.isFlush = false := by
  simp only [lineWrites, Bool.false_eq_true, if_false, List.append_nil, List.mem_append,
    List.mem_singleton] at h
  rcases h with (rfl | rfl) | rfl <;> rfl

/-- A flushed line ends in a flush. -/
theorem lineWrites_true (m : Message D) :
    lineWrites true m
      = [.fputs (.headerText ""), .fflush, .fputs (.formatBuf m), .fflush, .fputc '\n']
        ++ [.fflush] := rfl

/-- Each message comes back from the calls that wrote it. -/
theorem filterMap_line?_flatMap (flushed : Message D → Bool) (ms : List (Message D)) :
    (ms.flatMap fun m => lineWrites (flushed m) m).filterMap FileOp.line? = ms := by
  induction ms with
  | nil => rfl
  | cons m ms ih =>
    rw [List.flatMap_cons, List.filterMap_append, ih, filterMap_line?_lineWrites]
    rfl

/-- The text of a list of lines. -/
def text [PrintfDouble D] (ms : List (Message D)) : List Char :=
  ms.flatMap fun m => m.chars ++ ['\n']

theorem flatMap_chars_lineWrites [PrintfDouble D] (flushed : Bool) (m : Message D) :
    (lineWrites flushed m).flatMap FileOp.chars = m.chars ++ ['\n'] := by
  cases flushed <;> simp [lineWrites, FileOp.chars, Buf.chars]

/-- Flushed or not, lines are written as their text. -/
theorem flatMap_chars_flatMap [PrintfDouble D] (flushed : Message D → Bool)
    (ms : List (Message D)) :
    (ms.flatMap fun m => lineWrites (flushed m) m).flatMap FileOp.chars = text ms := by
  rw [text, List.flatMap_assoc]
  apply List.flatMap_congr
  intro m _
  exact flatMap_chars_lineWrites (flushed m) m

end LineWrites

end RuntimeScriptProfiler
