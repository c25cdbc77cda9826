import LarvaOS.Library.RingBuffer
import LarvaOS.Libc.Numbers
import LarvaOS.Video.Video

namespace LarvaOS
namespace Video

open Library Libc

/-!
# The terminal

What the screen is for: one row of cells after the other, in which a position moves on with
every character.  A newline moves it to the next line, and a backspace clears the cell
before it.

The driver with its two counters is such a terminal, until a newline is written in the last
line or a backspace in the first column of a lower one.  `cout` puts texts and numbers out
on it, and what it shows are the last characters of them.
-/

/-! ## The abstract terminal -/

/-- The cells with the position of the next character, and its color. -/
structure Terminal where
  ring : RingBuffer (BitVec 16)
  color : Byte

def Terminal.initial (videoMem : Nat -> BitVec 16) : Terminal := ⟨⟨videoMem, 0⟩, VGA_COLOR_WHITE⟩

namespace Terminal

variable (terminal : Terminal)

def type (c : Byte) : Terminal :=
  let position := terminal.ring.position
  if c = newline then { terminal with ring := ⟨terminal.ring.cells, (position / vgaWidth + 1) * vgaWidth % screenSize⟩ }
  else if c = backspace then
    if position = 0 then terminal
    else
      { terminal with
        ring := ⟨Function.update terminal.ring.cells (position - 1) (vgaEntry 0x20#8 terminal.color), position - 1⟩ }
  else { terminal with ring := terminal.ring.put screenSize (vgaEntry c terminal.color) }

/-- The upper half of the screen is cleared. -/
def clear : Terminal where
  ring := ⟨fun index => if index < screenSize / 2 then 0#16 else terminal.ring.cells index, 0⟩
  color := VGA_COLOR_WHITE

def run : Event -> Terminal
  | .clear => terminal.clear
  | .setColor c => { terminal with color := c }
  | .character c => terminal.type c

/-- There is a line below for a newline, and a backspace stays in its line. -/
def Keeps : Event -> Prop
  | .character c =>
      (c = newline -> terminal.ring.position / vgaWidth + 1 < vgaHeight) ∧
        (c = backspace -> terminal.ring.position % vgaWidth = 0 -> terminal.ring.position = 0)
  | _ => True

end Terminal

/-- The screen shows the terminal. -/
structure Screen.Shows (screen : Screen) (terminal : Terminal) : Prop where
  cells : screen.videoMem = terminal.ring.cells
  color : screen.color = terminal.color
  position : terminal.ring.position = screen.row.toNat * vgaWidth + screen.column.toNat
  column : screen.column.toNat < vgaWidth
  row : screen.row.toNat < vgaHeight

/-! ## One step -/

theorem word_succ {x : Word} {bound : Nat} (below : x.toNat < bound) (small : bound < 2 ^ 32) :
    (x + 1#32).toNat = x.toNat + 1 := by
  rw [BitVec.toNat_add, BitVec.toNat_ofNat]
  omega

namespace Screen.Shows

variable {screen : Screen} {terminal : Terminal} (shows : screen.Shows terminal)
include shows

theorem index : (screen.row * BitVec.ofNat 32 vgaWidth + screen.column).toNat = terminal.ring.position := by
  have column := shows.column
  have row := shows.row
  rw [shows.position, BitVec.toNat_add, BitVec.toNat_mul, BitVec.toNat_ofNat]
  unfold vgaWidth vgaHeight at *
  omega

theorem inside : terminal.ring.position < screenSize := by
  have column := shows.column
  have row := shows.row
  rw [shows.position]
  unfold screenSize vgaWidth vgaHeight at *
  omega

/-- The two counters of the position. -/
theorem counters : terminal.ring.position / vgaWidth = screen.row.toNat ∧
    terminal.ring.position % vgaWidth = screen.column.toNat := by
  have column := shows.column
  rw [shows.position]
  unfold vgaWidth at *
  omega

theorem keeps_iff (event : Event) : screen.KeepsCursor event ↔ terminal.Keeps event := by
  rcases shows.counters with ⟨row, column⟩
  cases event with
  | clear => exact Iff.rfl
  | setColor c => exact Iff.rfl
  | character c =>
      unfold Screen.KeepsCursor Terminal.Keeps
      have first : screen.column = 0#32 ↔ screen.column.toNat = 0 := BitVec.toNat_inj.symm
      have upper : screen.row = 0#32 ↔ screen.row.toNat = 0 := BitVec.toNat_inj.symm
      rw [row, column, first, upper]
      refine and_congr Iff.rfl (imp_congr_right fun _ => imp_congr_right fun start => ?_)
      rw [shows.position, start]
      unfold vgaWidth
      omega

theorem newline (above : screen.row.toNat + 1 < vgaHeight) :
    (putc screen Video.newline).Shows (terminal.type Video.newline) := by
  have row : (screen.row + 1#32).toNat = screen.row.toNat + 1 := word_succ shows.row (by decide)
  rw [putc_newline, Terminal.type, if_pos rfl]
  refine ⟨shows.cells, shows.color, ?_, firstColumn_lt, ?_⟩
  · change (terminal.ring.position / vgaWidth + 1) * vgaWidth % screenSize = (screen.row + 1#32).toNat * vgaWidth + 0
    rw [shows.counters.1, row]
    unfold screenSize vgaWidth vgaHeight at *
    omega
  · change (screen.row + 1#32).toNat < vgaHeight
    rw [row]
    exact above

/-- What a printable character leaves. -/
theorem advance {after : Screen} {cells : Nat -> BitVec 16} (written : after.videoMem = cells)
    (color : after.color = terminal.color) (column : after.column = screen.column) (row : after.row = screen.row) :
    (advanceCursor after).Shows ⟨⟨cells, (terminal.ring.position + 1) % screenSize⟩, terminal.color⟩ := by
  have nextColumn : (screen.column + 1#32).toNat = screen.column.toNat + 1 := word_succ shows.column (by decide)
  have nextRow : (screen.row + 1#32).toNat = screen.row.toNat + 1 := word_succ shows.row (by decide)
  have position := shows.position
  have columnBound := shows.column
  have rowBound := shows.row
  unfold advanceCursor screenSize vgaWidth vgaHeight at *
  rw [column, row]
  by_cases lastColumn : screen.column + 1#32 = 80#32
  · have full : screen.column.toNat + 1 = 80 := by rw [← nextColumn, lastColumn]; rfl
    by_cases lastRow : screen.row + 1#32 = 40#32
    · have whole : screen.row.toNat + 1 = 40 := by rw [← nextRow, lastRow]; rfl
      simp only [lastColumn, lastRow, if_true]
      refine ⟨written, color, ?_, firstColumn_lt, firstRow_lt⟩
      change (terminal.ring.position + 1) % (80 * 40) = 0 * 80 + 0
      omega
    · have other : screen.row.toNat + 1 ≠ 40 := fun same => lastRow (BitVec.eq_of_toNat_eq (nextRow.trans same))
      simp only [lastColumn, lastRow, if_true, if_false]
      refine ⟨written, color, ?_, firstColumn_lt, ?_⟩
      · change (terminal.ring.position + 1) % (80 * 40) = (screen.row + 1#32).toNat * 80 + 0
        omega
      · change (screen.row + 1#32).toNat < 40
        omega
  · have other : screen.column.toNat + 1 ≠ 80 := fun same => lastColumn (BitVec.eq_of_toNat_eq (nextColumn.trans same))
    simp only [lastColumn, if_false]
    refine ⟨written, color, ?_, ?_, ?_⟩
    · change (terminal.ring.position + 1) % (80 * 40) = screen.row.toNat * 80 + (screen.column + 1#32).toNat
      omega
    · change (screen.column + 1#32).toNat < 80
      omega
    · exact rowBound

/-- The character is in the cell at the position. -/
theorem putcAt (c : Byte) : (Video.putcAt screen c screen.color screen.column screen.row).videoMem =
    Function.update terminal.ring.cells terminal.ring.position (vgaEntry c terminal.color) := by
  rw [← shows.index, ← shows.cells, ← shows.color]
  rfl

/-- The counters move on like the position. -/
theorem printable {c : Byte} (notNewline : c ≠ Video.newline) (notBackspace : c ≠ backspace) :
    (putc screen c).Shows (terminal.type c) := by
  rw [putc_printable screen notNewline notBackspace, Terminal.type, if_neg notNewline, if_neg notBackspace]
  exact shows.advance (shows.putcAt c) shows.color rfl rfl

/-- One column back. -/
theorem stepBack (within : screen.column ≠ 0#32) : terminal.ring.position ≠ 0 ∧
    (Video.stepBack screen).Shows ⟨⟨terminal.ring.cells, terminal.ring.position - 1⟩, terminal.color⟩ := by
  have positive : screen.column.toNat ≠ 0 := fun zero => within (BitVec.eq_of_toNat_eq zero)
  have position := shows.position
  have columnBound := shows.column
  have back : (screen.column - 1#32).toNat = screen.column.toNat - 1 := by
    have bound := screen.column.isLt
    rw [BitVec.toNat_sub, BitVec.toNat_ofNat]
    omega
  have stepped : Video.stepBack screen = { screen with column := screen.column - 1#32 } := by
    rw [Video.stepBack, if_neg within]
  rw [stepped]
  refine ⟨by omega, shows.cells, shows.color, ?_, ?_, shows.row⟩
  · change terminal.ring.position - 1 = screen.row.toNat * vgaWidth + (screen.column - 1#32).toNat
    omega
  · change (screen.column - 1#32).toNat < vgaWidth
    omega

/-- A backspace within a line. -/
theorem backspace (within : screen.column ≠ 0#32) :
    (putc screen Video.backspace).Shows (terminal.type Video.backspace) := by
  rcases shows.stepBack within with ⟨positive, stepped⟩
  have typed : terminal.type Video.backspace =
      ⟨⟨Function.update terminal.ring.cells (terminal.ring.position - 1) (vgaEntry 0x20#8 terminal.color),
        terminal.ring.position - 1⟩, terminal.color⟩ := by
    rw [Terminal.type, if_neg (by decide), if_pos rfl, if_neg positive]
  rw [putc_backspace, putSpecialChar, if_neg (by decide), if_pos rfl, if_neg fun both => within both.1, typed]
  have column : (Video.stepBack screen).column + 1#32 = screen.column := by
    rw [Video.stepBack, if_neg within]
    exact BitVec.sub_add_cancel _ _
  have notLast : (Video.stepBack screen).column + 1#32 ≠ BitVec.ofNat 32 vgaWidth := by
    intro same
    have bound := shows.column
    rw [← column, same] at bound
    exact absurd bound (by decide)
  have returned : (Video.stepBack screen).column + 1#32 - 1#32 = (Video.stepBack screen).column :=
    BitVec.add_sub_cancel _ _
  rw [putPrintable_within notLast]
  simp only [returned]
  exact ⟨stepped.putcAt 0x20#8, stepped.color, stepped.position, stepped.column, stepped.row⟩

/-- A step keeps the screen what the terminal is exactly when it stays on the terminal. -/
theorem run_iff (event : Event) : (event.run screen).Shows (terminal.run event) ↔ terminal.Keeps event := by
  cases event with
  | clear =>
      refine ⟨fun _ => trivial, fun _ => ⟨?_, rfl, rfl, firstColumn_lt, firstRow_lt⟩⟩
      funext index
      change (if index < screenSize / 2 then 0#16 else screen.videoMem index) = _
      rw [shows.cells]
      rfl
  | setColor c => exact ⟨fun _ => trivial, fun _ => ⟨shows.cells, rfl, shows.position, shows.column, shows.row⟩⟩
  | character c =>
      rw [← shows.keeps_iff]
      unfold Screen.KeepsCursor
      by_cases isNewline : c = Video.newline
      · subst isNewline
        refine ⟨fun after => ⟨fun _ => ?_, fun same => absurd same (by decide)⟩, fun keeps => shows.newline (keeps.1 rfl)⟩
        have row := after.row
        have next : (screen.row + 1#32).toNat = screen.row.toNat + 1 := word_succ shows.row (by decide)
        rw [Event.run, putc_newline] at row
        exact next ▸ row
      · by_cases isBackspace : c = Video.backspace
        · subst isBackspace
          by_cases firstColumn : screen.column = 0#32
          · by_cases firstRow : screen.row = 0#32
            · refine ⟨fun _ => ⟨fun same => absurd same isNewline, fun _ _ => firstRow⟩, fun _ => ?_⟩
              have start : terminal.ring.position = 0 := by
                rw [shows.position, firstColumn, firstRow]
                rfl
              rw [Event.run, Terminal.run, putc_backspace, putSpecialChar, if_neg (by decide), if_pos rfl,
                if_pos ⟨firstColumn, firstRow⟩, Terminal.type, if_neg (by decide), if_pos rfl, if_pos start]
              exact shows
            · constructor
              · intro after
                have column := after.column
                rw [Event.run, putc_backspace, backspaceAcross firstColumn firstRow] at column
                exact absurd column (by decide)
              · exact fun keeps => absurd (keeps.2 rfl firstColumn) firstRow
          · exact ⟨fun _ => ⟨fun same => absurd same isNewline, fun _ first => absurd first firstColumn⟩,
              fun _ => shows.backspace firstColumn⟩
        · exact ⟨fun _ => ⟨fun same => absurd same isNewline, fun same => absurd same isBackspace⟩,
            fun _ => shows.printable isNewline isBackspace⟩

end Screen.Shows

theorem Screen.initial_shows (videoMem : Nat -> BitVec 16) :
    (Screen.initial videoMem).Shows (Terminal.initial videoMem) := ⟨rfl, rfl, rfl, firstColumn_lt, firstRow_lt⟩

/-- The driver and the terminal, side by side. -/
def runBoth (both : Screen × Terminal) (event : Event) : Screen × Terminal := (event.run both.1, both.2.run event)

/-- Whatever calls are made after the kernel starts, they are made character by character,
and after every character the screen is that of the terminal exactly when no newline is
typed in the last line, and no backspace at the beginning of a lower one. -/
theorem shows_iff_keeps (videoMem : Nat -> BitVec 16) (calls : List Call) :
    calls.foldl Call.run (Screen.initial videoMem) =
        (calls.flatMap Call.events).foldl Event.run (Screen.initial videoMem) ∧
      (Run.Throughout runBoth (fun both => both.1.Shows both.2) (Screen.initial videoMem, Terminal.initial videoMem)
          (calls.flatMap Call.events) ↔
        Run.Everywhere Terminal.run Terminal.Keeps (Terminal.initial videoMem) (calls.flatMap Call.events)) := by
  have part := @Run.everywhere_part _ _ runBoth _ Prod.snd Terminal.run (fun _ _ => rfl) Terminal.Keeps
    (Screen.initial videoMem, Terminal.initial videoMem) (calls.flatMap Call.events)
  refine ⟨calls_run _ calls, Iff.trans ?_ part⟩
  exact Run.throughout_iff (fun _ shows => shows) (fun _ event shows _ keeps => (shows.run_iff event).mpr keeps)
    (fun _ event shows _ crosses after => crosses ((shows.run_iff event).mp after)) _ _
    (Screen.initial_shows videoMem) (Run.everywhere_true _ _)

/-! ## Output -/

/-- What `cout` puts out.  A number comes with what is in the array `str` before. -/
inductive Output where
  | text (str : List Byte)
  | number (num : Int) (str : Nat -> Byte)
  | color (c : Byte)
  | endl

/-- The array `str` of `operator<<`, as `print` finds it. -/
def arrayText (str : CharArray) : List Byte := (List.range 32).map str.chars

/-- `operator<<` of `ostream`. -/
def Output.run (screen : Screen) : Output -> Option Screen
  | .text str => some (print screen str)
  | .number num str => (itoa num str 10).map fun str => print screen (arrayText str)
  | .color c => some (setColor screen c)
  | .endl => some (print screen [newline])

/-- What is meant by it. -/
def Output.events : Output -> List Event
  | .text str => (str.takeWhile (· ≠ 0#8)).map .character
  | .number num _ => (decimal num).map .character
  | .color c => [.setColor c]
  | .endl => [.character newline]

/-- A number that has a numeral. -/
def Output.Written : Output -> Prop
  | .number num _ => 0 ≤ num ∧ num < 2 ^ 31
  | _ => True

/-- The string in an array that holds it, from a place on. -/
theorem takeWhile_holds {chars : Nat -> Byte} {start : Nat} {text : List Byte} (holds : HoldsAt chars start text)
    (ends : chars (start + text.length) = 0#8) (noNull : forall c, c ∈ text -> c ≠ 0#8) {count : Nat}
    (fits : text.length < count) : ((List.range' start count).map chars).takeWhile (· ≠ 0#8) = text := by
  induction text generalizing start count with
  | nil =>
      cases count with
      | zero => exact absurd fits (Nat.not_lt_zero _)
      | succ count =>
          rw [List.range'_succ, List.map_cons, List.takeWhile_cons_of_neg]
          rw [show chars start = 0#8 from ends]
          decide
  | cons c text inductionHypothesis =>
      cases count with
      | zero => exact absurd fits (Nat.not_lt_zero _)
      | succ count =>
          rcases holdsAt_cons.mp holds with ⟨here, later⟩
          rw [List.range'_succ, List.map_cons, here, List.takeWhile_cons_of_pos]
          · refine congrArg (c :: ·) (inductionHypothesis later ?_ ?_ (Nat.lt_of_succ_lt_succ fits))
            · rw [← ends, List.length_cons, Nat.add_assoc, Nat.add_comm 1]
            · exact fun c' member => noNull c' (List.mem_cons_of_mem c member)
          · exact decide_eq_true (noNull c List.mem_cons_self)

/-- What `itoa` leaves in the array is the numeral. -/
theorem arrayText_itoa {num : Int} (nonnegative : 0 ≤ num) (small : num < 2 ^ 31) (str : Nat -> Byte) :
    exists array, itoa num str 10 = some array ∧ (arrayText array).takeWhile (· ≠ 0#8) = decimal num := by
  have bound : num.natAbs < 10 ^ 10 := by omega
  rcases itoa_stores num str bound with ⟨array, made, ended, _, digits⟩
  have numeral : decimal num = (digitsOf num.natAbs).reverse.map digitByte := by
    rw [decimal, if_neg (Int.not_lt.mpr nonnegative), List.nil_append]
  have length : (decimal num).length = (digitsOf num.natAbs).length := by
    rw [numeral, List.length_map, List.length_reverse]
  have short := digitsOf_length_le bound
  refine ⟨array, made, ?_⟩
  rw [arrayText, List.range_eq_range']
  refine takeWhile_holds (numeral ▸ digits nonnegative) ?_ ?_ (by omega)
  · rw [length, Nat.zero_add]
    exact ended
  · intro c member
    rw [numeral] at member
    rcases List.mem_map.mp member with ⟨digit, isDigit, rfl⟩
    exact (digitByte_plain (digitsOf_lt (List.mem_reverse.mp isDigit))).2.2.2

/-- Output does to the screen what is meant by it. -/
theorem Output.run_eq_events (screen : Screen) {output : Output} (written : output.Written) :
    output.run screen = some (output.events.foldl Event.run screen) := by
  cases output with
  | text str => exact congrArg some (foldl_characters screen _).symm
  | number num str =>
      rcases arrayText_itoa written.1 written.2 str with ⟨array, made, text⟩
      rw [Output.run, made, Option.map_some, print, text]
      exact congrArg some (foldl_characters screen _).symm
  | color c => rfl
  | endl => rfl

/-- A screen that shows the terminal goes on to show it. -/
theorem Screen.Shows.events {screen : Screen} {terminal : Terminal} (shows : screen.Shows terminal) {events : List Event}
    (keeps : Run.Everywhere Terminal.run Terminal.Keeps terminal events) :
    (events.foldl Event.run screen).Shows (events.foldl Terminal.run terminal) := by
  induction events generalizing screen terminal with
  | nil => exact shows
  | cons event events inductionHypothesis => exact inductionHypothesis ((shows.run_iff event).mpr keeps.1) keeps.2

/-- One output after the other. -/
theorem outputs_run (screen : Screen) {outputs : List Output}
    (written : forall output, output ∈ outputs -> output.Written) :
    outputs.foldlM Output.run screen = some ((outputs.flatMap Output.events).foldl Event.run screen) := by
  induction outputs generalizing screen with
  | nil => rfl
  | cons output outputs inductionHypothesis =>
      rw [List.foldlM_cons, output.run_eq_events screen (written output List.mem_cons_self), List.flatMap_cons,
        List.foldl_append]
      exact inductionHypothesis _ fun other member => written other (List.mem_cons_of_mem output member)

/-! ## Plain output -/

/-- A character that is printed, or a color. -/
def Event.Plain : Event -> Prop
  | .clear => False
  | .setColor _ => True
  | .character c => c ≠ newline ∧ c ≠ backspace

instance : DecidablePred Event.Plain
  | .clear => isFalse id
  | .setColor _ => isTrue trivial
  | .character c => inferInstanceAs (Decidable (c ≠ newline ∧ c ≠ backspace))

/-- The cells of plain events, for the color before. -/
def cellsOf : Byte -> List Event -> List (BitVec 16)
  | _, [] => []
  | color, .clear :: events => cellsOf color events
  | _, .setColor c :: events => cellsOf c events
  | color, .character c :: events => vgaEntry c color :: cellsOf color events

/-- Plain events put one cell behind the other. -/
theorem Terminal.plain_run {terminal : Terminal} {events : List Event} (plain : forall event, event ∈ events -> event.Plain) :
    Run.Everywhere Terminal.run Terminal.Keeps terminal events ∧
      (events.foldl Terminal.run terminal).ring = terminal.ring.putAll screenSize (cellsOf terminal.color events) := by
  induction events generalizing terminal with
  | nil => exact ⟨trivial, rfl⟩
  | cons event events inductionHypothesis =>
      have first := plain event List.mem_cons_self
      have rest := fun other member => plain other (List.mem_cons_of_mem event member)
      cases event with
      | clear => exact absurd first id
      | setColor c => exact ⟨⟨trivial, (inductionHypothesis rest).1⟩, (inductionHypothesis rest).2⟩
      | character c =>
          have typed : terminal.run (.character c) =
              { terminal with ring := terminal.ring.put screenSize (vgaEntry c terminal.color) } := by
            rw [Terminal.run, Terminal.type, if_neg first.1, if_neg first.2]
          have later := @inductionHypothesis (terminal.run (.character c)) rest
          refine ⟨⟨⟨fun same => absurd same first.1, fun same => absurd same first.2⟩, later.1⟩, later.2.trans ?_⟩
          rw [typed]
          rfl

/-- Output without newlines and backspaces. -/
def Output.Plain (output : Output) : Prop := output.Written ∧ forall event, event ∈ output.events -> event.Plain

/-- The last characters are on the screen, each in the cell of its number; the cells that
no character has reached are as the constructor of `cout` has left them; and the cursor is
behind the last character. -/
structure Screen.ShowsLast (entries : List (BitVec 16)) (before : Nat -> BitVec 16) (screen : Screen) : Prop where
  recent : forall index entry, entries[index]? = some entry -> entries.length ≤ index + screenSize ->
    screen.videoMem (index % screenSize) = entry
  others : forall cell, entries.length ≤ cell -> screen.videoMem cell = if cell < screenSize / 2 then 0#16 else before cell
  cursor : screen.row.toNat * vgaWidth + screen.column.toNat = entries.length % screenSize
  column : screen.column.toNat < vgaWidth

/-- Whatever `cout` has put out since its constructor, be it texts, numbers or colors: the
screen shows the last characters of it, each with its color. -/
theorem cout_showsLast (screen : Screen) {outputs : List Output}
    (plain : forall output, output ∈ outputs -> output.Plain) : exists after,
      outputs.foldlM Output.run (clear screen) = some after ∧
        after.ShowsLast (cellsOf VGA_COLOR_WHITE (outputs.flatMap Output.events)) screen.videoMem := by
  have plainEvents : forall event, event ∈ outputs.flatMap Output.events -> event.Plain := by
    intro event member
    rcases List.mem_flatMap.mp member with ⟨output, inOutputs, inEvents⟩
    exact (plain output inOutputs).2 event inEvents
  let cleared : Terminal := Terminal.clear ⟨⟨screen.videoMem, 0⟩, VGA_COLOR_WHITE⟩
  have shows : (clear screen).Shows cleared := ⟨rfl, rfl, rfl, firstColumn_lt, firstRow_lt⟩
  have start : cleared.ring.position < screenSize := (by decide : 0 < screenSize)
  rcases @Terminal.plain_run cleared _ plainEvents with ⟨keeps, ring⟩
  have after := shows.events keeps
  refine ⟨_, outputs_run _ fun output member => (plain output member).1, ?_⟩
  change _ = cleared.ring.putAll screenSize (cellsOf VGA_COLOR_WHITE _) at ring
  refine ⟨fun index entry found recent => ?_, fun cell beyond => ?_, ?_, after.column⟩
  · rw [after.cells, ring]
    have shown := RingBuffer.putAll_recent start found recent
    rwa [show cleared.ring.position = 0 from rfl, Nat.zero_add] at shown
  · rw [after.cells, ring]
    refine RingBuffer.putAll_untouched start fun index below same => ?_
    rw [show cleared.ring.position = 0 from rfl, Nat.zero_add] at same
    have small := Nat.mod_le index screenSize
    omega
  · rw [← after.position, ring, RingBuffer.putAll_position start]
    rw [show cleared.ring.position = 0 from rfl, Nat.zero_add]

/-- A greeting, in green, and a number. -/
def greeting : List Output := [.color 2#8, .text [0x48#8, 0x69#8, 0x20#8], .number 42 fun _ => 0xFF#8]

theorem cout_showsLast_greeting : exists after, greeting.foldlM Output.run (clear (Screen.initial fun _ => 0#16)) = some after ∧
    after.ShowsLast (cellsOf VGA_COLOR_WHITE (greeting.flatMap Output.events)) fun _ => 0#16 := by
  refine cout_showsLast (Screen.initial fun _ => 0#16) ?_
  intro output member
  rcases List.mem_cons.mp member with rfl | member
  · exact ⟨trivial, by decide⟩
  rcases List.mem_pair.mp member with rfl | rfl
  · exact ⟨trivial, by decide⟩
  · exact ⟨⟨by decide, by decide⟩, by decide⟩

end Video
end LarvaOS
