import LarvaOS.Library.Run
import LarvaOS.Machine.Word

namespace LarvaOS
namespace Video

open Library

/-!
# The text screen

The cursor is a pair of unsigned counters, and a character cell is a word of
16 bits at `0xB8000 + 2 * index`.  The indexes of all stores are noted.

A printable character wraps both counters.  A newline does not wrap the row,
and a backspace in column 0 goes through the last column of the row above,
where writing the blank wraps the column before it is stepped back a second
time.  Each of the two takes the cursor off the screen from exactly one edge.
-/

def vgaWidth : Nat := 80
def vgaHeight : Nat := 40
def screenSize : Nat := vgaWidth * vgaHeight

def VGA_COLOR_WHITE : Byte := 15#8

/-- The variables of the driver, with the list of the cells stored to. -/
structure Screen where
  videoMem : Nat -> BitVec 16
  row : Word
  column : Word
  color : Byte
  stores : List Nat

/-- The variables when the kernel starts. -/
def Screen.initial (videoMem : Nat -> BitVec 16) : Screen := ⟨videoMem, 0#32, 0#32, VGA_COLOR_WHITE, []⟩

def newline : Byte := 0x0A#8
def backspace : Byte := 0x08#8

def isSpecialChar (c : Byte) : Bool := c == newline || c == backspace

/-- `vga_entry`.  The character is a signed one and fills the color byte when
it is negative. -/
def vgaEntry (c color : Byte) : BitVec 16 := c.signExtend 16 ||| (color.setWidth 16 <<< 8)

/-- `putc_at`. -/
def putcAt (screen : Screen) (c color : Byte) (x y : Word) : Screen :=
  let index := (y * BitVec.ofNat 32 vgaWidth + x).toNat
  { screen with
    videoMem := Function.update screen.videoMem index (vgaEntry c color)
    stores := index :: screen.stores }

/-- The cursor moved past a cell that was written. -/
def advanceCursor (screen : Screen) : Screen :=
  let column := screen.column + 1#32
  if column = BitVec.ofNat 32 vgaWidth then
    let row := screen.row + 1#32
    { screen with
      column := 0#32
      row := if row = BitVec.ofNat 32 vgaHeight then 0#32 else row }
  else { screen with column := column }

/-- `putc`, for a character that is not special. -/
def putPrintable (screen : Screen) (c : Byte) : Screen :=
  advanceCursor (putcAt screen c screen.color screen.column screen.row)

/-- The cursor before the cell that a backspace clears. -/
def stepBack (screen : Screen) : Screen :=
  let screen :=
    if screen.column = 0#32 then { screen with row := screen.row - 1#32, column := BitVec.ofNat 32 vgaWidth }
    else screen
  { screen with column := screen.column - 1#32 }

/-- `put_special_char`.  The blank it writes is not special. -/
def putSpecialChar (screen : Screen) (c : Byte) : Screen :=
  if c = newline then { screen with row := screen.row + 1#32, column := 0#32 }
  else if c = backspace then
    if screen.column = 0#32 ∧ screen.row = 0#32 then screen
    else
      let screen := putPrintable (stepBack screen) 0x20#8
      { screen with column := screen.column - 1#32 }
  else screen

def putc (screen : Screen) (c : Byte) : Screen :=
  if isSpecialChar c then putSpecialChar screen c else putPrintable screen c

/-- `clear`.  The size of the screen is a number of cells, and `memset` takes it
as a number of bytes. -/
def clear (screen : Screen) : Screen where
  row := 0#32
  column := 0#32
  color := VGA_COLOR_WHITE
  videoMem := fun index => if index < screenSize / 2 then 0#16 else screen.videoMem index
  stores := List.range (screenSize / 2) ++ screen.stores

def write (screen : Screen) (data : List Byte) : Screen := data.foldl putc screen

def setColor (screen : Screen) (c : Byte) : Screen := { screen with color := c }

/-- `print`: the bytes before the first NUL. -/
def print (screen : Screen) (data : List Byte) : Screen := write screen (data.takeWhile (· ≠ 0#8))

/-! ## Runs -/

inductive Call where
  | clear
  | setColor (c : Byte)
  | write (data : List Byte)
  | print (data : List Byte)

def Call.run (screen : Screen) : Call -> Screen
  | .clear => Video.clear screen
  | .setColor c => Video.setColor screen c
  | .write data => Video.write screen data
  | .print data => Video.print screen data

/-- A step between two moments at which the cursor is looked at. -/
inductive Event where
  | clear
  | setColor (c : Byte)
  | character (c : Byte)

def Event.run (screen : Screen) : Event -> Screen
  | .clear => Video.clear screen
  | .setColor c => Video.setColor screen c
  | .character c => putc screen c

/-- The steps of a call, one for each character. -/
def Call.events : Call -> List Event
  | .clear => [.clear]
  | .setColor c => [.setColor c]
  | .write data => data.map .character
  | .print data => (data.takeWhile (· ≠ 0#8)).map .character

theorem foldl_characters (screen : Screen) (data : List Byte) :
    (data.map Event.character).foldl Event.run screen = write screen data := by
  rw [List.foldl_map]
  rfl

/-- A call does what its steps do. -/
theorem Call.run_eq_events (screen : Screen) (call : Call) : call.run screen = call.events.foldl Event.run screen := by
  cases call with
  | clear => rfl
  | setColor c => rfl
  | write data => exact (foldl_characters screen data).symm
  | print data => exact (foldl_characters screen _).symm

/-- Calls one after the other do what their steps do one after the other. -/
theorem calls_run (screen : Screen) (calls : List Call) :
    calls.foldl Call.run screen = (calls.flatMap Call.events).foldl Event.run screen := by
  induction calls generalizing screen with
  | nil => rfl
  | cons call calls inductionHypothesis =>
      rw [List.foldl_cons, List.flatMap_cons, List.foldl_append, ← call.run_eq_events]
      exact inductionHypothesis (call.run screen)

/-- The cursor and all stores are on the screen. -/
structure Screen.OnScreen (screen : Screen) : Prop where
  column : screen.column.toNat < vgaWidth
  row : screen.row.toNat < vgaHeight
  stores : forall index, index ∈ screen.stores -> index < screenSize

/-- The step does not start a line below the last one, and does not go back
from the first column to the line above. -/
def Screen.KeepsCursor (screen : Screen) : Event -> Prop
  | .character c =>
      (c = newline -> screen.row.toNat + 1 < vgaHeight) ∧
        (c = backspace -> screen.column = 0#32 -> screen.row = 0#32)
  | _ => True

theorem firstColumn_lt : (0#32).toNat < vgaWidth := by decide

theorem firstRow_lt : (0#32).toNat < vgaHeight := by decide

theorem cellIndex_lt {x y : Word} (column : x.toNat < vgaWidth) (row : y.toNat < vgaHeight) :
    (y * BitVec.ofNat 32 vgaWidth + x).toNat < screenSize := by
  unfold screenSize vgaWidth vgaHeight at *
  have line : (y * BitVec.ofNat 32 80).toNat = y.toNat * 80 := by
    rw [BitVec.toNat_mul, BitVec.toNat_ofNat]
    omega
  rw [BitVec.toNat_add, line, Nat.mod_eq_of_lt (by omega)]
  omega

namespace Screen.OnScreen

variable {screen : Screen}

theorem putcAt (onScreen : screen.OnScreen) (c color : Byte) :
    (Video.putcAt screen c color screen.column screen.row).OnScreen where
  column := onScreen.column
  row := onScreen.row
  stores := by
    intro index stored
    rcases List.mem_cons.mp stored with here | earlier
    · exact here ▸ cellIndex_lt onScreen.column onScreen.row
    · exact onScreen.stores index earlier

theorem advanceCursor (onScreen : screen.OnScreen) : (Video.advanceCursor screen).OnScreen := by
  have columnBound := onScreen.column
  have rowBound := onScreen.row
  unfold Video.advanceCursor
  by_cases lastColumn : screen.column + 1#32 = BitVec.ofNat 32 vgaWidth
  · by_cases lastRow : screen.row + 1#32 = BitVec.ofNat 32 vgaHeight
    · simp only [lastColumn, lastRow, if_true]
      exact ⟨firstColumn_lt, firstRow_lt, onScreen.stores⟩
    · simp only [lastColumn, lastRow, if_true, if_false]
      refine ⟨firstColumn_lt, ?_, onScreen.stores⟩
      change (screen.row + 1#32).toNat < vgaHeight
      have different : (screen.row + 1#32).toNat ≠ vgaHeight := fun same => lastRow (BitVec.eq_of_toNat_eq same)
      rw [BitVec.toNat_add, BitVec.toNat_ofNat] at *
      unfold vgaHeight at *
      omega
  · simp only [lastColumn, if_false]
    refine ⟨?_, onScreen.row, onScreen.stores⟩
    change (screen.column + 1#32).toNat < vgaWidth
    have different : (screen.column + 1#32).toNat ≠ vgaWidth := fun same => lastColumn (BitVec.eq_of_toNat_eq same)
    rw [BitVec.toNat_add, BitVec.toNat_ofNat] at *
    unfold vgaWidth at *
    omega

theorem putPrintable (onScreen : screen.OnScreen) (c : Byte) : (Video.putPrintable screen c).OnScreen :=
  (onScreen.putcAt c screen.color).advanceCursor

/-- Within a line the blank brings the cursor back to where it was, and it is
stepped back once more. -/
theorem backspaceWithin (onScreen : screen.OnScreen) (within : screen.column ≠ 0#32) :
    (putSpecialChar screen backspace).OnScreen ∧
      (putSpecialChar screen backspace).column = screen.column - 1#32 := by
  have columnBound := onScreen.column
  have positive : 0 < screen.column.toNat := by
    by_contra none
    exact within (BitVec.eq_of_toNat_eq (by rw [BitVec.toNat_ofNat]; omega))
  have back : (screen.column - 1#32).toNat = screen.column.toNat - 1 := by
    have bound := screen.column.isLt
    rw [BitVec.toNat_sub, BitVec.toNat_ofNat]
    omega
  have stepped : stepBack screen = { screen with column := screen.column - 1#32 } := by
    rw [stepBack, if_neg within]
  have onStepped : (stepBack screen).OnScreen := by
    rw [stepped]
    exact ⟨by rw [back]; omega, onScreen.row, onScreen.stores⟩
  have written := onStepped.putPrintable 0x20#8
  have notLast : screen.column ≠ BitVec.ofNat 32 vgaWidth := by
    intro same
    rw [same] at columnBound
    exact absurd columnBound (by decide)
  have returned : (Video.putPrintable (stepBack screen) 0x20#8).column = screen.column := by
    have sum : screen.column - 1#32 + 1#32 = screen.column := BitVec.sub_add_cancel _ _
    rw [stepped, Video.putPrintable, Video.advanceCursor]
    simp only [Video.putcAt, sum, notLast, if_false]
  have unfolded : putSpecialChar screen backspace =
      { Video.putPrintable (stepBack screen) 0x20#8 with
        column := (Video.putPrintable (stepBack screen) 0x20#8).column - 1#32 } := by
    rw [putSpecialChar, if_neg (by decide), if_pos rfl, if_neg fun both => within both.1]
  rw [unfolded, returned]
  exact ⟨⟨by change (screen.column - 1#32).toNat < vgaWidth; omega, written.row, written.stores⟩, rfl⟩

end Screen.OnScreen

/-- From the first column a backspace leaves the column below zero. -/
theorem backspaceAcross {screen : Screen} (firstColumn : screen.column = 0#32) (lower : screen.row ≠ 0#32) :
    (putSpecialChar screen backspace).column = 0#32 - 1#32 := by
  have wrapped : (advanceCursor (putcAt (stepBack screen) 0x20#8 (stepBack screen).color (stepBack screen).column
      (stepBack screen).row)).column = 0#32 := by
    have last : (stepBack screen).column = BitVec.ofNat 32 vgaWidth - 1#32 := by
      rw [stepBack, if_pos firstColumn]
    have next : (stepBack screen).column + 1#32 = BitVec.ofNat 32 vgaWidth := by
      rw [last]
      exact BitVec.sub_add_cancel _ _
    unfold advanceCursor
    simp only [putcAt, next, if_true]
  rw [putSpecialChar, if_neg (by decide), if_pos rfl, if_neg fun both => lower both.2]
  exact congrArg (· - 1#32) wrapped

theorem putc_newline (screen : Screen) :
    putc screen newline = { screen with row := screen.row + 1#32, column := 0#32 } := by
  rw [putc, if_pos (by decide), putSpecialChar, if_pos rfl]

theorem putc_backspace (screen : Screen) : putc screen backspace = putSpecialChar screen backspace := by
  rw [putc, if_pos (by decide)]

theorem putc_printable (screen : Screen) {c : Byte} (notNewline : c ≠ newline) (notBackspace : c ≠ backspace) :
    putc screen c = putPrintable screen c := by
  have printable : isSpecialChar c = false := by
    rw [isSpecialChar, beq_eq_false_iff_ne.mpr notNewline, beq_eq_false_iff_ne.mpr notBackspace]
    rfl
  rw [putc, printable]
  rfl

theorem Screen.OnScreen.clear {screen : Screen} (onScreen : screen.OnScreen) : (Video.clear screen).OnScreen where
  column := firstColumn_lt
  row := firstRow_lt
  stores := by
    intro index stored
    rcases List.mem_append.mp stored with cleared | earlier
    · have inside := List.mem_range.mp cleared
      have half : screenSize / 2 ≤ screenSize := Nat.div_le_self _ _
      omega
    · exact onScreen.stores index earlier

/-- One step keeps the cursor and the stores on the screen exactly when it does
not cross one of the two edges. -/
theorem Screen.OnScreen.run_iff {screen : Screen} (onScreen : screen.OnScreen) (event : Event) :
    (event.run screen).OnScreen ↔ screen.KeepsCursor event := by
  cases event with
  | clear => exact ⟨fun _ => trivial, fun _ => onScreen.clear⟩
  | setColor c => exact ⟨fun _ => trivial, fun _ => ⟨onScreen.column, onScreen.row, onScreen.stores⟩⟩
  | character c =>
      rw [Event.run, KeepsCursor]
      by_cases isNewline : c = newline
      · subst isNewline
        have rowBound := onScreen.row
        have nextRow : (screen.row + 1#32).toNat = screen.row.toNat + 1 := by
          rw [BitVec.toNat_add, BitVec.toNat_ofNat]
          unfold vgaHeight at rowBound
          omega
        rw [putc_newline]
        constructor
        · intro after
          refine ⟨fun _ => nextRow ▸ after.row, fun isBackspace => absurd isBackspace (by decide)⟩
        · rintro ⟨above, _⟩
          exact ⟨firstColumn_lt, nextRow ▸ above rfl, onScreen.stores⟩
      · by_cases isBackspace : c = backspace
        · subst isBackspace
          rw [putc_backspace]
          by_cases firstColumn : screen.column = 0#32
          · by_cases firstRow : screen.row = 0#32
            · have still : putSpecialChar screen backspace = screen := by
                rw [putSpecialChar, if_neg (by decide), if_pos rfl, if_pos ⟨firstColumn, firstRow⟩]
              rw [still]
              exact ⟨fun _ => ⟨fun same => absurd same isNewline, fun _ _ => firstRow⟩, fun _ => onScreen⟩
            · constructor
              · intro after
                have below := after.column
                rw [backspaceAcross firstColumn firstRow] at below
                exact absurd below (by decide)
              · rintro ⟨_, stays⟩
                exact absurd (stays rfl firstColumn) firstRow
          · exact ⟨fun _ => ⟨fun same => absurd same isNewline, fun _ first => absurd first firstColumn⟩,
              fun _ => (onScreen.backspaceWithin firstColumn).1⟩
        · rw [putc_printable screen isNewline isBackspace]
          exact ⟨fun _ => ⟨fun same => absurd same isNewline, fun same => absurd same isBackspace⟩,
            fun _ => onScreen.putPrintable c⟩

theorem Screen.initial_onScreen (videoMem : Nat -> BitVec 16) : (Screen.initial videoMem).OnScreen :=
  ⟨firstColumn_lt, firstRow_lt, fun _ stored => absurd stored List.not_mem_nil⟩

/-- Whatever calls are made after the kernel starts, they are made character by character,
and the cursor and the stores are on the screen after every character exactly when no
newline is written in the last row and no backspace in the first column of a lower row. -/
theorem onScreen_iff_keepsCursor (videoMem : Nat -> BitVec 16) (calls : List Call) :
    calls.foldl Call.run (Screen.initial videoMem) =
        (calls.flatMap Call.events).foldl Event.run (Screen.initial videoMem) ∧
      (Run.Throughout Event.run Screen.OnScreen (Screen.initial videoMem) (calls.flatMap Call.events) ↔
        Run.Everywhere Event.run Screen.KeepsCursor (Screen.initial videoMem) (calls.flatMap Call.events)) :=
  ⟨calls_run _ calls, Run.throughout_iff (fun _ onScreen => onScreen)
    (fun _ event onScreen _ keeps => (onScreen.run_iff event).mpr keeps)
    (fun _ event onScreen _ crosses after => crosses ((onScreen.run_iff event).mp after))
    _ _ (Screen.initial_onScreen videoMem) (Run.everywhere_true _ _)⟩

/-- A newline and a backspace, as in erasing an empty line, put the column at
`2^32 - 1`. -/
theorem onScreen_fails_newline_backspace :
    ¬ Run.Throughout Event.run Screen.OnScreen (Screen.initial fun _ => 0#16)
      ([Call.write [newline, backspace]].flatMap Call.events) := by
  rintro ⟨_, _, after⟩
  exact absurd after.column (by decide)

/-! ## Erasing -/

/-- The cell under the cursor is blank, and nothing else has changed that is seen. -/
structure Screen.BlankAt (screen after : Screen) : Prop where
  row : after.row = screen.row
  column : after.column = screen.column
  videoMem : after.videoMem = Function.update screen.videoMem
    (screen.row * BitVec.ofNat 32 vgaWidth + screen.column).toNat (vgaEntry 0x20#8 screen.color)

/-- Before the last column a character moves the cursor by one column. -/
theorem putPrintable_within {screen : Screen} (within : screen.column + 1#32 ≠ BitVec.ofNat 32 vgaWidth) (c : Byte) :
    putPrintable screen c =
      { putcAt screen c screen.color screen.column screen.row with column := screen.column + 1#32 } := by
  rw [putPrintable, advanceCursor]
  exact if_neg within

/-- A blank over the character, from the cell behind it. -/
theorem backspace_putPrintable {screen : Screen} (within : screen.column + 1#32 ≠ BitVec.ofNat 32 vgaWidth)
    (positive : screen.column + 1#32 ≠ 0#32) (c : Byte) :
    screen.BlankAt (putSpecialChar (putPrintable screen c) backspace) := by
  have back : screen.column + 1#32 - 1#32 = screen.column := BitVec.add_sub_cancel _ _
  have moved := putPrintable_within within c
  have stepped : stepBack (putPrintable screen c) = putcAt screen c screen.color screen.column screen.row := by
    rw [moved, stepBack, if_neg positive]
    simp only [back]
    rfl
  have columnMoved : (putPrintable screen c).column = screen.column + 1#32 := by
    rw [moved]
  rw [putSpecialChar, if_neg (by decide), if_pos rfl, if_neg fun both => positive (columnMoved ▸ both.1), stepped]
  have blanked := @putPrintable_within (putcAt screen c screen.color screen.column screen.row) within 0x20#8
  simp only [blanked]
  exact ⟨rfl, back, Function.update_idem _ _ _⟩

/-- In the last column a character moves the cursor to the next line. -/
theorem putPrintable_wraps {screen : Screen} (lastColumn : screen.column + 1#32 = BitVec.ofNat 32 vgaWidth)
    (above : screen.row + 1#32 ≠ BitVec.ofNat 32 vgaHeight) (c : Byte) :
    (putPrintable screen c).column = 0#32 ∧ (putPrintable screen c).row = screen.row + 1#32 := by
  rw [putPrintable, advanceCursor]
  have columnWraps : (putcAt screen c screen.color screen.column screen.row).column + 1#32 = BitVec.ofNat 32 vgaWidth :=
    lastColumn
  have rowStays : (putcAt screen c screen.color screen.column screen.row).row + 1#32 ≠ BitVec.ofNat 32 vgaHeight := above
  simp only [columnWraps, rowStays, if_true, if_false]
  exact ⟨trivial, rfl⟩

/-- A backspace undoes a character, but for the blank, exactly when the character was
not written in the last column. -/
theorem backspace_erases {screen : Screen} (onColumn : screen.column.toNat < vgaWidth)
    (onRow : screen.row.toNat < vgaHeight)
    (notLast : ¬ (screen.column.toNat + 1 = vgaWidth ∧ screen.row.toNat + 1 = vgaHeight)) {c : Byte}
    (notNewline : c ≠ newline) (notBackspace : c ≠ backspace) :
    screen.BlankAt (putc (putc screen c) backspace) ↔ screen.column.toNat + 1 < vgaWidth := by
  have nextColumn : (screen.column + 1#32).toNat = screen.column.toNat + 1 := by
    rw [BitVec.toNat_add, BitVec.toNat_ofNat]
    unfold vgaWidth at onColumn
    omega
  have nextRow : (screen.row + 1#32).toNat = screen.row.toNat + 1 := by
    rw [BitVec.toNat_add, BitVec.toNat_ofNat]
    unfold vgaHeight at onRow
    omega
  rw [putc_backspace, putc_printable screen notNewline notBackspace]
  constructor
  · intro erased
    by_contra last
    have lastColumn : screen.column + 1#32 = BitVec.ofNat 32 vgaWidth := by
      apply BitVec.eq_of_toNat_eq
      rw [nextColumn, BitVec.toNat_ofNat]
      unfold vgaWidth at *
      omega
    have above : screen.row + 1#32 ≠ BitVec.ofNat 32 vgaHeight := by
      intro same
      have rows := congrArg BitVec.toNat same
      have columns := congrArg BitVec.toNat lastColumn
      rw [nextRow] at rows
      rw [nextColumn] at columns
      exact notLast ⟨columns, rows⟩
    have lower : screen.row + 1#32 ≠ 0#32 := by
      intro same
      have rows := congrArg BitVec.toNat same
      rw [nextRow] at rows
      exact Nat.succ_ne_zero _ rows
    rcases putPrintable_wraps lastColumn above c with ⟨firstColumn, nextLine⟩
    -- the column is stepped back from 0 once the blank has wrapped
    have column := backspaceAcross firstColumn (nextLine ▸ lower)
    rw [erased.column] at column
    rw [column] at onColumn
    exact absurd onColumn (by decide)
  · intro within
    refine backspace_putPrintable ?_ ?_ c
    · intro same
      have columns := congrArg BitVec.toNat same
      rw [nextColumn] at columns
      exact absurd columns (Nat.ne_of_lt within)
    · intro same
      have columns := congrArg BitVec.toNat same
      rw [nextColumn] at columns
      exact Nat.succ_ne_zero _ columns

/-- An `A` in the first cell. -/
theorem backspace_erases_first :
    (Screen.initial fun _ => 0#16).BlankAt (putc (putc (Screen.initial fun _ => 0#16) 0x41#8) backspace) :=
  (@backspace_erases (Screen.initial fun _ => 0#16) (by decide) (by decide) (by decide) 0x41#8 (by decide)
    (by decide)).mpr (by decide)

/-- An `A` in the last cell of the first line: the column ends at `2^32 - 1`, in the
second line. -/
theorem backspace_erases_lastColumn :
    ¬ Screen.BlankAt ⟨fun _ => 0#16, 0#32, 79#32, VGA_COLOR_WHITE, []⟩
      (putc (putc ⟨fun _ => 0#16, 0#32, 79#32, VGA_COLOR_WHITE, []⟩ 0x41#8) backspace) := by
  intro erased
  exact absurd erased.column (by decide)

end Video
end LarvaOS
