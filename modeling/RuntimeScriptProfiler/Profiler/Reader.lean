import Mathlib.Algebra.Order.Floor.Ring
import Mathlib.Logic.Equiv.Fin.Basic
import RuntimeScriptProfiler.Framework.PrefixCode
import RuntimeScriptProfiler.Profiler.Process

/-!
# Reading the log

The lines of the log, as a text format. A line shows a script entry or a frame separator
with a number of milliseconds (`Record`), the number as `%.10f` shows it (`Printed`). The
line formats of the hooks are a `PrefixCode` for such records (`line`), so a reader of the
log finds the records of a run in the text of its file, and a text that reads as these
records is that text (`readLog_process`). What the plugin writes is therefore never
ambiguous: whatever was logged, no entry runs into the next, and no digit is lost.

The arithmetic of the hooks comes in through its printed numbers only (`Legible`).
-/

namespace RuntimeScriptProfiler

open PrefixCode

/-! ### What a line shows -/

/-- A number as `%.10f` shows it: not a number, an infinity, or a multiple of `10⁻¹⁰`
with its sign, which a zero has too. -/
inductive Printed where
  | nan
  | inf (negative : Bool)
  | fixed (negative : Bool) (units : ℕ)
  deriving DecidableEq

/-- What a line of a run shows. -/
inductive Record where
  | entry (refID : UInt32) (elapsedMs : Printed)
  | separator (elapsedMs : Printed)
  deriving DecidableEq

/-! ### Numbers -/

/-- The digit a decimal or an upper-case hexadecimal symbol stands for. -/
def digitValue (c : Char) : ℕ := if c.isDigit then c.toNat - 48 else c.toNat - 55

theorem digitValue_toUpper_digitChar : ∀ d < 16, digitValue (Nat.digitChar d).toUpper = d := by
  decide

theorem digitValue_digitChar : ∀ d < 10, digitValue (Nat.digitChar d) = d := by
  decide

theorem isDigit_digitChar : ∀ d < 10, (Nat.digitChar d).isDigit = true := by
  decide

theorem valueOf_toDigits (n : ℕ) : valueOf digitValue 10 (Nat.toDigits 10 n) = n := by
  have h : valueOf digitValue 10 ((Nat.toDigits 10 n).map id) = n :=
    valueOf_map_toDigits digitValue 10 (by decide) digitValue_digitChar n
  rwa [List.map_id] at h

theorem isDigit_of_mem_toDigits {n : ℕ} {c : Char} (h : c ∈ Nat.toDigits 10 n) :
    c.isDigit = true := by
  obtain ⟨d, hd, rfl⟩ := exists_digitChar_of_mem_toDigits (by decide) h
  exact isDigit_digitChar d hd

/-- The digits before the decimal point, with the point. -/
def wholePart : PrefixCode Char ℕ :=
  delimited '.' (Nat.toDigits 10) (valueOf digitValue 10)
    (fun _ h => absurd (isDigit_of_mem_toDigits h) (by decide)) valueOf_toDigits

/-- The ten digits after it. -/
def fracPart : PrefixCode Char (Fin (10 ^ 10)) :=
  fixed 10 (fun u => List.leftpad 10 '0' (Nat.toDigits 10 u.val))
    (fun ds => Fin.ofNat (10 ^ 10) (valueOf digitValue 10 ds))
    (fun u => by
      have h : (List.leftpad 10 '0' ((Nat.toDigits 10 u.val).map id)).length = 10 :=
        length_leftpad_toDigits 10 '0' (by decide) (by decide) u.isLt
      rwa [List.map_id] at h)
    (fun u => by
      rw [valueOf_leftpad digitValue 10 rfl, valueOf_toDigits]
      exact Fin.ofNat_val_eq_self u)

/-- A multiple of `10⁻¹⁰`. -/
def decimal : PrefixCode Char ℕ :=
  (wholePart.seq fracPart).congr (Nat.divModEquiv (10 ^ 10)).symm

theorem print_decimal (u : ℕ) :
    decimal.print u = Nat.toDigits 10 (u / 10 ^ 10) ++ ['.']
      ++ List.leftpad 10 '0' (Nat.toDigits 10 (u % 10 ^ 10)) := rfl

theorem startsIn_decimal : decimal.StartsIn (·.isDigit = true) := by
  intro u
  obtain ⟨x, ds, hds⟩ : ∃ x ds, Nat.toDigits 10 (u / 10 ^ 10) = x :: ds :=
    List.exists_cons_of_ne_nil Nat.toDigits_ne_nil
  -- there is a digit in front of the point, even of a number below one
  refine ⟨x, _, by rw [print_decimal, hds, List.cons_append, List.cons_append], ?_⟩
  exact isDigit_of_mem_toDigits (n := u / 10 ^ 10) (by rw [hds]; exact List.mem_cons_self)

/-- A number without its sign. -/
def magnitude : PrefixCode Char (Unit ⊕ ℕ) :=
  (lit ['i', 'n', 'f']).alt decimal
    (StartsIn.disjoint (StartsIn.lit (· = 'i') _ rfl) startsIn_decimal (by
      rintro x rfl
      decide))

theorem startsIn_magnitude : magnitude.StartsIn fun x => x = 'i' ∨ x.isDigit = true := by
  refine StartsIn.alt ?_ ?_ _
  -- the text of an infinity or a digit
  · exact StartsIn.lit (fun x => x = 'i' ∨ x.isDigit = true) _ (Or.inl rfl)
  · exact startsIn_decimal.mono fun _ h => Or.inr h

/-- A number with its sign. -/
def signed : PrefixCode Char ((Unit × (Unit ⊕ ℕ)) ⊕ (Unit ⊕ ℕ)) :=
  ((lit ['-']).seq magnitude).alt magnitude
    (StartsIn.disjoint (StartsIn.seq (StartsIn.lit (· = '-') _ rfl) _)
      startsIn_magnitude (by
        rintro x rfl
        decide))

/-- The values of `signed` and not-a-number, as printed numbers. -/
def printedEquiv : Unit ⊕ ((Unit × (Unit ⊕ ℕ)) ⊕ (Unit ⊕ ℕ)) ≃ Printed where
  toFun
    | .inl () => .nan
    | .inr (.inl ((), .inl ())) => .inf true
    | .inr (.inl ((), .inr u)) => .fixed true u
    | .inr (.inr (.inl ())) => .inf false
    | .inr (.inr (.inr u)) => .fixed false u
  invFun
    | .nan => .inl ()
    | .inf true => .inr (.inl ((), .inl ()))
    | .fixed true u => .inr (.inl ((), .inr u))
    | .inf false => .inr (.inr (.inl ()))
    | .fixed false u => .inr (.inr (.inr u))
  left_inv v := by
    rcases v with - | ⟨-, - | u⟩ | - | u <;> rfl
  right_inv v := by
    rcases v with - | negative | ⟨negative, u⟩
    · rfl
    all_goals cases negative <;> rfl

theorem startsIn_signed :
    signed.StartsIn fun x => x = '-' ∨ x = 'i' ∨ x.isDigit = true := by
  refine StartsIn.alt ?_ ?_ _
  -- the sign, if there is one, is in front of either
  · exact (StartsIn.lit (fun x => x = '-' ∨ x = 'i' ∨ x.isDigit = true) _ (Or.inl rfl)).seq _
  · exact startsIn_magnitude.mono fun _ h => Or.inr h

/-- Printed numbers. -/
def number : PrefixCode Char Printed :=
  ((lit ['n', 'a', 'n']).alt signed
    (StartsIn.disjoint (StartsIn.lit (· = 'n') _ rfl) startsIn_signed (by
      rintro x rfl
      decide))).congr printedEquiv

/-! ### Lines -/

/-- Form IDs, as `%08X` shows them. -/
def hexID : PrefixCode Char UInt32 :=
  fixed 8 Message.hex8 (fun ds => UInt32.ofNat (valueOf digitValue 16 ds))
    (fun n => length_leftpad_toDigits 16 '0' (by decide) (by decide) n.toNat_lt)
    (fun n => by
      rw [Message.hex8, valueOf_leftpad digitValue 16 rfl,
        valueOf_map_toDigits digitValue 16 (by decide) digitValue_toUpper_digitChar]
      exact UInt32.ofNat_toNat)

theorem startsIn_hexID : hexID.StartsIn (· ≠ '=') := by
  intro n
  have hlen : (Message.hex8 n).length = 8 :=
    length_leftpad_toDigits 16 '0' (by decide) (by decide) n.toNat_lt
  obtain ⟨x, ds, hds⟩ : ∃ x ds, Message.hex8 n = x :: ds :=
    List.exists_cons_of_length_pos (by omega)
  refine ⟨x, ds, hds, ?_⟩
  -- every symbol is a zero of the padding or an upper-case digit
  have hx : x ∈ Message.hex8 n := by
    rw [hds]
    exact List.mem_cons_self
  rw [Message.hex8, List.leftpad, List.mem_append, List.mem_map] at hx
  rcases hx with hx | ⟨c, hc, rfl⟩
  · rw [List.eq_of_mem_replicate hx]
    decide
  · obtain ⟨d, hd, rfl⟩ := exists_digitChar_of_mem_toDigits (by decide) hc
    have hne : ∀ d < 16, (Nat.digitChar d).toUpper ≠ '=' := by decide
    exact hne d hd

/-- The end of a line that shows a number. -/
def lineEnd : PrefixCode Char (Printed × Unit) := number.seq (lit [' ', 'm', 's', '\n'])

/-- Lines that show an entry. -/
def entryLine : PrefixCode Char (UInt32 × Unit × Printed × Unit) :=
  hexID.seq ((lit (List.replicate 9 '\t')).seq lineEnd)

/-- Lines that show a separator. -/
def separatorLine : PrefixCode Char (Unit × Printed × Unit) :=
  (lit ('=' :: (List.replicate 81 '=' ++ [' ']))).seq lineEnd

/-- What the two lines show, as records. -/
def recordEquiv : (Unit × Printed × Unit) ⊕ (UInt32 × Unit × Printed × Unit) ≃ Record where
  toFun
    | .inl ((), ms, ()) => .separator ms
    | .inr (refID, (), ms, ()) => .entry refID ms
  invFun
    | .separator ms => .inl ((), ms, ())
    | .entry refID ms => .inr (refID, (), ms, ())
  left_inv v := by rcases v with ⟨-, ms, -⟩ | ⟨refID, -, ms, -⟩ <;> rfl
  right_inv v := by cases v <;> rfl

theorem startsIn_separatorLine : separatorLine.StartsIn (· = '=') :=
  (StartsIn.lit (· = '=') _ rfl).seq _

theorem startsIn_entryLine : entryLine.StartsIn (· ≠ '=') := startsIn_hexID.seq _

/-- The lines of a run. -/
def line : PrefixCode Char Record :=
  (separatorLine.alt entryLine
    (StartsIn.disjoint startsIn_separatorLine startsIn_entryLine fun _ h => not_not.mpr h)).congr
      recordEquiv

theorem print_line_ne_nil (v : Record) : line.print v ≠ [] := by
  -- a line starts with something, be it a separator or an entry
  have hstart : line.StartsIn fun _ => True := by
    refine StartsIn.congr (StartsIn.alt ?_ ?_ _) recordEquiv
    · exact startsIn_separatorLine.mono fun _ _ => trivial
    · exact startsIn_entryLine.mono fun _ _ => trivial
  exact hstart.ne_nil v

/-! ### The numbers the hooks print -/

/-- Numbers whose printed text is that of a printed number. -/
class Legible (D : Type) [PrintfDouble D] where
  /-- What is printed of a number. -/
  printed : D → Printed
  /-- Its text. -/
  toList_fixed : ∀ d : D, (PrintfDouble.fixed 10 d).toList = number.print (printed d)

/-- The multiple of `10⁻¹⁰` that is printed of a nonnegative number. -/
def units (q : ℚ) : ℕ := ⌊q * 10 ^ 10 + 1 / 2⌋.toNat

theorem toList_fixedAbs (q : ℚ) : (fixedAbs 10 q).toList = decimal.print (units q) := by
  rw [print_decimal, fixedAbs]
  simp only [String.toList_append, Nat.toString_eq_repr, Nat.toList_repr, String.toList_ofList]
  rfl

/-- The sign in front of a text. -/
theorem toList_neg (t : String) : ("-" ++ t).toList = '-' :: t.toList := by
  rw [String.toList_append]
  rfl

instance : Legible ℚ where
  printed q := if q < 0 then .fixed true (units (-q)) else .fixed false (units q)
  toList_fixed q := by
    -- a negative number is a sign and the text of its magnitude
    by_cases hq : q < 0
    · simp only [PrintfDouble.fixed, if_pos hq, toList_neg, toList_fixedAbs]
      rfl
    · simp only [PrintfDouble.fixed, if_neg hq, toList_fixedAbs]
      rfl

open Float.Model in
instance : Legible Float where
  printed x :=
    match x.toModel.unpack with
    | .notANumber => .nan
    | .infinity s => .inf (s == .negative)
    | .zero s => .fixed (s == .negative) (units 0)
    | .finite s m e _ => .fixed (s == .negative) (units (m * 2 ^ e))
  toList_fixed x := by
    simp only [PrintfDouble.fixed]
    -- each kind of `double` has its own text
    cases x.toModel.unpack with
    | notANumber => rfl
    | infinity s => cases s <;> rfl
    | zero s =>
      cases s with
      | positive => exact toList_fixedAbs 0
      | negative => exact (toList_neg _).trans (congrArg _ (toList_fixedAbs 0))
    | finite s m e hm =>
      cases s with
      | positive => exact toList_fixedAbs _
      | negative => exact (toList_neg _).trans (congrArg _ (toList_fixedAbs _))

section Printed

open Float.Model

variable {x : Float} {s : UnpackedFloat.Sign}

theorem printed_zero (hx : x.toModel.unpack = .zero s) :
    Legible.printed x = .fixed (s == .negative) (units 0) := by
  dsimp only [Legible.printed]
  rw [hx]

theorem printed_finite {m : ℕ} {e : ℤ} {hm : 0 < m} (hx : x.toModel.unpack = .finite s m e hm) :
    Legible.printed x = .fixed (s == .negative) (units (m * 2 ^ e)) := by
  dsimp only [Legible.printed]
  rw [hx]

end Printed

/-! ### The log of a run, read -/

section ReadLog

variable {F D : Type} [HookArith F D] [Legible D]

/-- What the line of an event shows. -/
def Event.record (game : Game) : Event (Execution F) → Record
  | .script _ x => .entry x.script.refID (Legible.printed (HookArith.scriptMs x.elapsed))
  | .frameEnd start stop =>
    .separator (Legible.printed (HookArith.frameMs F (stop - start) game.frequency))

/-- The line of an event is the line of what it shows. -/
theorem print_record (game : Game) (e : Event (Execution F)) :
    line.print (e.record game) = (e.message game).chars ++ ['\n'] := by
  -- the format of the hook, piece by piece, is the code of its line
  cases e with
  | script k x =>
    rw [Event.message, Message.chars, String.toList_append, Legible.toList_fixed]
    simp only [List.append_assoc]
    rfl
  | frameEnd start stop =>
    rw [Event.message, Message.chars, String.toList_append, String.toList_append,
      Legible.toList_fixed]
    simp only [List.append_assoc]
    rfl

/-- The text of the loader's lines. -/
def preambleText : List Char :=
  ("RuntimeScriptProfiler Initializing...\n" ++ "RuntimeScriptProfiler Initialized!\n\n\n" ++
    "Script\t\t\t\t\t\t\t\t\t\tElapsed Time\n\n").toList

/-- The records of a log, if it is one. -/
def readLog (cs : List Char) : Option (List Record) :=
  ((lit preambleText).read cs).bind fun p => line.readAll p.2

/-- A text is read as a log exactly if it is one. -/
theorem readLog_eq_some_iff (cs : List Char) (records : List Record) :
    readLog cs = some records ↔ cs = preambleText ++ records.flatMap line.print := by
  constructor
  · intro h
    -- what is read is what was printed, for the preamble and for the lines after it
    obtain ⟨⟨u, rest⟩, hread, hall⟩ := Option.bind_eq_some_iff.mp h
    have hrest : rest = records.flatMap line.print :=
      (line.readAll_eq_some_iff print_line_ne_nil rest records).mp hall
    rw [((lit preambleText).read_eq_some_iff _ _ _).mp hread, hrest]
    rfl
  · rintro rfl
    have hread := (lit preambleText).read_print () (records.flatMap line.print)
    rw [readLog]
    change (((lit preambleText).read ((lit preambleText).print () ++ _)).bind _) = _
    rw [hread, Option.bind_some]
    exact (line.readAll_eq_some_iff print_line_ne_nil _ records).mpr rfl

/-- The text of a run's file is that of its records. -/
theorem chars_runFile_eq (game : Game) (name : String) (o : Options) (r : Run (Execution F)) :
    (runFile game name o r : FILE D).chars
      = preambleText ++ ((r.log game o).map (Event.record game)).flatMap line.print := by
  -- the loader's lines are the preamble, and each line after them is its event's
  have hlines : (r.log game o).flatMap (fun e => (e.message game).chars ++ ['\n'])
      = (r.log game o).flatMap fun e => line.print (e.record game) :=
    List.flatMap_congr fun e _ => (print_record game e).symm
  rw [chars_runFile, text, List.flatMap_append, List.flatMap_map, List.flatMap_map, hlines]
  rfl

theorem readLog_runFile (game : Game) (name : String) (o : Options) (r : Run (Execution F)) :
    readLog (runFile game name o r : FILE D).chars
      = some ((r.log game o).map (Event.record game)) :=
  (readLog_eq_some_iff _ _).mpr (chars_runFile_eq game name o r)

/-- **The log is read back.** A text reads as the records of a run's log exactly if it is
the text of the file that the run leaves. -/
theorem readLog_process (fsopen : String → Bool) (ini : PrivateProfile) (game : Game)
    (r : Run (Execution F)) {name : String}
    (hname : (IDebugLog.names logPath).find? fsopen = some name) :
    ∃ file : FILE D, (process fsopen ini game r).gLog.logFile = some file ∧
      ∀ cs, readLog cs = some ((r.log game (handleIniOptions ini)).map (Event.record game)) ↔
        cs = file.chars := by
  refine ⟨_, logFile_process ini game r hname, fun cs => ?_⟩
  rw [readLog_eq_some_iff, chars_runFile_eq]

end ReadLog

/-- A run of one frame, in which one script runs for half a second. -/
def sampleRun : Run (Execution Float32) :=
  ⟨[.frame ⟨⟨fun _ _ => 0, 0⟩, [sampleExecution], 16⟩], none⟩

theorem readLog_process_sampleRun :
    ∃ file : FILE Float,
      (process (fun _ => true) (PrivateProfile.ofOptions sampleOptions) sampleGame
        sampleRun).gLog.logFile = some file ∧
      ∀ cs, readLog cs = some ((sampleRun.log sampleGame
          (handleIniOptions (PrivateProfile.ofOptions sampleOptions))).map
            (Event.record sampleGame)) ↔ cs = file.chars :=
  readLog_process _ _ _ _ rfl

end RuntimeScriptProfiler
