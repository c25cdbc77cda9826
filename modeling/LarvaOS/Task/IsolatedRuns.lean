import LarvaOS.Task.Isolation

namespace LarvaOS
namespace Tasks

open Disk Fs Library Memory PageWalk

/-!
# Runs that keep programs isolated

Loads and copies follow one another after the boot.  As long as the requests that
matter are served and the copies go to memory of their callers, what a program can
store to is its own in every state that is reached.

The copy itself looks at no destination.  A single byte that it stores to the table
entry of a program takes the image of the program away.
-/

/-! ## The calls -/

/-- The calls that change page structures. -/
inductive MemoryCall where
  | loadProcess (stat : Word) (filename : List Byte)
  | copyFromUser (task userPtr toPtr : Word) (size : Int)

/-- The kernel after a call that comes back. -/
def MemoryCall.run (kernel : Kernel) : MemoryCall -> Option Kernel
  | .loadProcess stat filename => (Tasks.loadProcess kernel stat filename).map (·.kernel)
  | .copyFromUser task userPtr toPtr size => (Tasks.copyFromUser kernel task userPtr toPtr size).map (·.2)

/-- One more call.  A call that does not come back is the last one. -/
def MemoryCall.step (state : Option Kernel) (call : MemoryCall) : Option Kernel := state.bind (call.run ·)

/-- No page structure of the new task is refused. -/
def PageStructuresServed (kernel : Kernel) (stat : Word) (filename : List Byte) : Prop :=
  forall loaded, processLoadBinary (recordedKernel kernel) stat filename (kzalloc kernel sizeofProcess).1 = some loaded ->
    ¬ loaded.1 < 0 -> (kzalloc loaded.2 USER_PROGRAM_STACK_SIZE).1 ≠ 0#32 ->
      0#32 ∉ taskStores (kzalloc loaded.2 USER_PROGRAM_STACK_SIZE).2

/-- The record of the process, the long components of the path and the page structures
are served. -/
structure LoadServed (kernel : Kernel) (stat : Word) (filename : List Byte) : Prop where
  record : (kzalloc kernel sizeofProcess).1 ≠ 0#32
  fits : PathFits (recordedKernel kernel) filename
  pages : PageStructuresServed kernel stat filename

/-- The task is that of a process, and the size is an `int`. -/
def CopiesFromProcess (kernel : Kernel) (task : Word) (size : Int) : Prop :=
  -2 ^ 31 ≤ size ∧ exists slot, Occupied kernel slot ∧ task = (slotProcess kernel slot).task

/-- A place outside the page structures, the entry table and the records. -/
structure OutsideStructures (kernel : Kernel) (place : Word) : Prop where
  table : OutsideTable kernel.heap place
  kernelPages : ¬ InPageStructures kernel kernel.kernelDirectory place
  pages : forall slot, Occupied kernel slot -> ¬ InPageStructures kernel (slotPage kernel slot) place
  records : forall slot, Occupied kernel slot -> forall extent, kernel.heap.Owns extent ->
    (kernel.heap.addressOf extent.first = kernel.processes slot ∨
      kernel.heap.addressOf extent.first = (slotProcess kernel slot).task) -> ¬ kernel.heap.InExtent extent place

/-- The calls that keep programs isolated. -/
def CallServed (state : Option Kernel) (call : MemoryCall) : Prop :=
  forall kernel, state = some kernel -> match call with
    | .loadProcess stat filename => processGetFreeSlot kernel ≠ none -> LoadServed kernel stat filename
    | .copyFromUser task _ toPtr size => CopiesFromProcess kernel task size ∧
        forall place, Destination toPtr size place -> OutsideStructures kernel place

/-- A load keeps every process isolated, whether it goes through or not. -/
theorem Isolated.load {kernel : Kernel} {kernelBlocks : SpaceBlocks} {blocks : Nat -> ProcessBlocks}
    (isolated : Isolated kernel kernelBlocks blocks) {stat : Word} {filename : List Byte}
    (served : processGetFreeSlot kernel ≠ none -> LoadServed kernel stat filename) {loading : Loading}
    (loads : loadProcess kernel stat filename = some loading) :
    exists blocks', Isolated loading.kernel kernelBlocks blocks' := by
  have kernelHeap := isolated.active.kernelHeap
  have placed := kernelHeap.wellPlaced
  have nothingLoaded (nothing : NothingLoaded kernel loading) : exists blocks', Isolated loading.kernel kernelBlocks blocks' :=
    ⟨blocks, isolated.keep (nothing.keepsSpaces placed) ((congrArg Globals.processes nothing.globals).trans rfl)
      fun _ impossible => impossible.elim⟩
  cases free : processGetFreeSlot kernel with
  | none =>
      rw [loadProcess_full free loads]
      exact ⟨blocks, isolated⟩
  | some slot =>
      have legal := served (free ▸ Option.some_ne_none slot)
      rcases loadProcess_calls placed free legal.record loads with ⟨loaded, calls⟩
      rcases calls.cases kernelHeap legal.fits with
        ⟨_, nothing⟩ | ⟨_, _, nothing⟩ | ⟨succeeded, stack, prepared, ready, heap, _, rfl⟩
      · exact nothingLoaded nothing
      · exact nothingLoaded nothing
      · have stackPlaced : (kzalloc loaded.2 USER_PROGRAM_STACK_SIZE).2.heap.WellPlaced := heap ▸ ready.kernelHeap.wellPlaced
        have pages := legal.pages loaded calls.binary succeeded stack
        rw [taskStores_null stackPlaced, ← heap] at pages
        by_cases none : prepared.heap.freeBlocks = 0
        · exact nothingLoaded (ready.refused placed none)
        · have made := (makeNewTask_enough ready.kernelHeap.wellPlaced (kzalloc kernel sizeofProcess).1 (by omega)).1
          rcases ready.started made with ⟨linked, task, taskBlocks, complete, space⟩
          exact isolated.loaded complete space

/-- A copy to a place outside the structures keeps every process isolated. -/
theorem Isolated.copy {kernel : Kernel} {kernelBlocks : SpaceBlocks} {blocks : Nat -> ProcessBlocks}
    (isolated : Isolated kernel kernelBlocks blocks) {task userPtr toPtr : Word} {size : Int}
    (copies : CopiesFromProcess kernel task size)
    (outside : forall place, Destination toPtr size place -> OutsideStructures kernel place) {res : Int} {after : Kernel}
    (returns : copyFromUser kernel task userPtr toPtr size = some (res, after)) : Isolated after kernelBlocks blocks := by
  have placed := isolated.active.kernelHeap.wellPlaced
  rcases copies with ⟨int, slot, occupied, rfl⟩
  have apart : ApartFromSpaces kernel kernelBlocks blocks (Destination toPtr size) := by
    intro place isPlace
    refine ⟨fun inside => ?_, fun other taken inside => ?_⟩
    · exact (outside place isPlace).kernelPages ((inPageStructures_iff isolated.active.space placed (by decide) place).mpr inside)
    · have space := (isolated.processes other taken).map.space
      exact (outside place isPlace).pages other taken ((inPageStructures_iff space placed (by decide) place).mpr inside)
  rcases copyFromUser_keepsSpaces (isolated.callsFor occupied) int (fun place isPlace => (apart place isPlace).1)
    (fun place isPlace => (outside place isPlace).table) returns with ⟨keeps, processes⟩
  exact isolated.keep keeps processes apart

/-! ## Every run -/

/-- The programs are isolated in a state that was reached. -/
def IsolatedState (state : Option Kernel) : Prop :=
  forall kernel, state = some kernel -> exists kernelBlocks blocks, Isolated kernel kernelBlocks blocks

theorem IsolatedState.step {state : Option Kernel} {call : MemoryCall} (isolates : IsolatedState state)
    (served : CallServed state call) : IsolatedState (MemoryCall.step state call) := by
  intro after reached
  rcases Option.bind_eq_some_iff.mp reached with ⟨kernel, rfl, runs⟩
  rcases isolates kernel rfl with ⟨kernelBlocks, blocks, isolated⟩
  have legal := served kernel rfl
  cases call with
  | loadProcess stat filename =>
      rcases Option.map_eq_some_iff.mp runs with ⟨loading, loads, rfl⟩
      exact ⟨kernelBlocks, isolated.load legal loads⟩
  | copyFromUser task userPtr toPtr size =>
      rcases Option.map_eq_some_iff.mp runs with ⟨⟨res, copied⟩, returns, rfl⟩
      exact ⟨kernelBlocks, blocks, isolated.copy legal.1 legal.2 returns⟩

theorem installed_kernelDirectory {kernel : Kernel} (first : kernel.kernelDirectory = 0#32) (page : Word) :
    (switchToKernelPage (pagingInstallKernelPage kernel page)).kernelDirectory = page := by
  rw [pagingInstallKernelPage, if_pos first]
  rfl

theorem vmInitialize_kernelDirectory {kernel : Kernel} (first : kernel.kernelDirectory = 0#32) :
    (vmInitialize kernel).kernelDirectory = (makeNew4GBVirtualMemoryAddressSpace kernel 0b00000111#8).1 := by
  have none := (congrArg Globals.kernelDirectory (makeNew4GB_globals kernel 0b00000111#8)).trans first
  exact installed_kernelDirectory none _

/-- The boot, up to the address space of the kernel. -/
theorem boot_mounts {store : Store} {sectors : Int -> Nat -> Byte} {stray : Int -> Byte} {entries : Int -> Byte}
    {booted : Kernel} (boots : boot (Kernel.loaded store sectors stray) entries = some booted) : exists mounted,
      mounted.heap.IsKernelHeap ∧ mounted.heap.Encoded ∧ mounted.kernelDirectory = 0#32 ∧ booted = vmInitialize mounted := by
  unfold boot vfsInitialize at boots
  rcases Option.map_eq_some_iff.mp boots with ⟨mounted, mounting, rfl⟩
  have kernelHeap := kheapInit_isKernelHeap (Kernel.loaded store sectors stray) entries
  have mounts := diskInit_mounts mounting
  have requests : (kheapInit (Kernel.loaded store sectors stray) entries).heap.Requests mounted.heap := mounts.heap
  rcases requests.encoded kernelHeap.wellPlaced (kheapInit_encoded _ _) with ⟨pool, encoded⟩
  have initial : (fsInit (kheapInit (Kernel.loaded store sectors stray) entries)).kernelDirectory = 0#32 := by
    rw [fsInit, kheapInit, Kernel.withHeap_toGlobals]
    rfl
  exact ⟨mounted, kernelHeap.samePool pool, encoded,
    (congrArg Globals.kernelDirectory mounts.toGlobals).trans initial, rfl⟩

/-- The address space of a booted kernel. -/
theorem boot_kernelActive {store : Store} {sectors : Int -> Nat -> Byte} {stray : Int -> Byte} {entries : Int -> Byte}
    {booted : Kernel} (boots : boot (Kernel.loaded store sectors stray) entries = some booted)
    (mapped : booted.kernelDirectory ≠ 0#32) : exists kernelBlocks, KernelActive booted kernelBlocks := by
  rcases boot_mounts boots with ⟨mounted, kernelHeap, encoded, first, rfl⟩
  exact vmInitialize_kernelActive kernelHeap encoded first fun refused =>
    mapped ((vmInitialize_kernelDirectory first).trans refused)

/-- Before the first load. -/
theorem KernelActive.isolated {kernel : Kernel} {kernelBlocks : SpaceBlocks} (active : KernelActive kernel kernelBlocks)
    (processes : kernel.processes = fun _ => 0#32) (blocks : Nat -> ProcessBlocks) :
    Isolated kernel kernelBlocks blocks := by
  have none {slot : Nat} (occupied : Occupied kernel slot) : False := occupied.2 (congrFun processes slot)
  exact ⟨active, fun _ occupied => (none occupied).elim, fun _ _ occupied => (none occupied).elim,
    fun _ _ _ occupied => (none occupied).elim, fun _ _ occupied => (none occupied).elim,
    fun _ _ occupied => (none occupied).elim⟩

/-! ## Runs that are served -/

/-- A load for which no request is refused. -/
theorem LoadServed.of_unrefused {kernel : Kernel} (kernelHeap : kernel.heap.IsKernelHeap) {slot : Nat}
    (free : processGetFreeSlot kernel = some slot) {stat : Word} {filename : List Byte}
    (small : filename.length + 1 < 2 ^ 32) {loading : Loading} (loads : loadProcess kernel stat filename = some loading)
    (served : loading.kernel.refused = kernel.refused) : LoadServed kernel stat filename := by
  rcases loadProcess_hasRecord free loads served with ⟨record, unrefused⟩
  rcases loadProcess_calls kernelHeap.wellPlaced free record loads with ⟨loaded, calls⟩
  refine ⟨record, calls.fits small unrefused served, fun other binary succeeded _ null => ?_⟩
  obtain rfl := Option.some.inj (calls.binary.symm.trans binary)
  rcases calls.starts small unrefused served kernelHeap with ⟨failed, _⟩ | ⟨_, prepared, ready, heap, _, made⟩
  · exact succeeded failed
  · have stackPlaced : (kzalloc loaded.2 USER_PROGRAM_STACK_SIZE).2.heap.WellPlaced := heap ▸ ready.kernelHeap.wellPlaced
    rw [taskStores_null stackPlaced, ← heap] at null
    rw [makeNewTask_short ready.kernelHeap.wellPlaced _ null.1 null.2] at made
    exact absurd made Bool.false_ne_true.symm

/-- A kernel that has booted with a block left has its address space. -/
theorem boot_mapped {store : Store} {sectors : Int -> Nat -> Byte} {stray : Int -> Byte} {entries : Int -> Byte}
    {booted : Kernel} (boots : boot (Kernel.loaded store sectors stray) entries = some booted)
    (left : booted.heap.freeBlocks ≠ 0) : booted.kernelDirectory ≠ 0#32 := by
  rcases boot_mounts boots with ⟨mounted, kernelHeap, _, first, rfl⟩
  have space := makeNew4GB_freeBlocks kernelHeap.wellPlaced 0b00000111#8
  rw [vmInitialize_heap, space.2] at left
  rw [vmInitialize_kernelDirectory first]
  intro null
  have short := space.1.mp null
  omega

theorem freeBlocks_of_room {kernel : Kernel} {first : Nat} (room : RoomFrom kernel first) (fits : first < 25600) :
    kernel.heap.freeBlocks ≠ 0 := by
  have total : kernel.heap.table.total.toNat = 25600 := congrArg BitVec.toNat room.kernelHeap.total
  intro none
  have inside : first < kernel.heap.table.total.toNat := by
    rw [total]
    exact fits
  exact Heap.exhausted_iff.mpr none first inside (room.free first (Nat.le_refl first) inside)

/-- The call that loads the file of a hundred bytes. -/
def loadFile : MemoryCall := .loadProcess 0x1FF000#32 [forwardSlash, 0x41#8]

/-- A load of the file is served, and the new process is isolated from the others. -/
theorem Isolated.loadsFile {kernel : Kernel} {kernelBlocks : SpaceBlocks} {blocks : Nat -> ProcessBlocks}
    (isolated : Isolated kernel kernelBlocks blocks) {count first : Nat} (volume : VolumeReady count first kernel)
    (early : count + 1 < MAX_FILE_DESCRIPTORS) (fits : first + 1040 ≤ 25600) {slot : Nat}
    (free : processGetFreeSlot kernel = some slot) : exists loaded process blocks',
      CallServed (some kernel) loadFile ∧ MemoryCall.step (some kernel) loadFile = some loaded ∧
        Isolated loaded kernelBlocks blocks' ∧ loaded.processes = Function.update kernel.processes slot process ∧
          process ≠ 0#32 ∧ HasPage (slotProcess loaded slot) ∧ VolumeReady (count + 1) (first + 1040) loaded := by
  have kernelHeap := volume.room.kernelHeap
  rcases loadProcess_volume volume early fits free (show (0x1FF000#32).toNat + 32 ≤ 0x01000000 by decide) (fun _ => rfl) with
    ⟨loading, stored, loads, succeeds, _, last, unrefused, _⟩
  rcases loadProcess_space kernelHeap free (by decide) loads unrefused (Int.le_of_eq succeeds.symm) with
    ⟨ready, process, task, taskBlocks, complete, space⟩
  rcases isolated.loaded complete space with ⟨blocks', later⟩
  refine ⟨loading.kernel, process, blocks', ?_, congrArg (Option.map _) loads, later, complete.processes,
    complete.notNull kernelHeap.wellPlaced, ?_, last⟩
  · intro other here
    obtain rfl := Option.some.inj here
    exact fun _ => LoadServed.of_unrefused kernelHeap free (by decide) loads unrefused
  · unfold slotProcess
    rw [complete.processes, Function.update_self]
    exact space.hasPage

/-- A booted kernel that has loaded the file. -/
structure FileLoaded (booted kernel : Kernel) (kernelBlocks : SpaceBlocks) (blocks : Nat -> ProcessBlocks) : Prop where
  boots : boot fileVolume (fun _ => 0#8) = some booted
  mapped : booted.kernelDirectory ≠ 0#32
  served : CallServed (some booted) loadFile
  step : MemoryCall.step (some booted) loadFile = some kernel
  isolated : Isolated kernel kernelBlocks blocks
  processes : exists process, process ≠ 0#32 ∧ kernel.processes = Function.update (fun _ => 0#32) 0 process
  hasPage : HasPage (slotProcess kernel 0)
  volume : VolumeReady 1 2583 kernel

theorem exists_fileLoaded : exists booted kernel kernelBlocks blocks, FileLoaded booted kernel kernelBlocks blocks := by
  rcases fileVolume_booted with ⟨booted, boots, times⟩
  have mapped := boot_mapped boots (freeBlocks_of_room times.ready.room (by decide))
  rcases boot_kernelActive boots mapped with ⟨kernelBlocks, active⟩
  have empty := (boot_booted boots).processes
  have start := active.isolated empty fun _ => ⟨Extent.single 0, ⟨0, ⟨0, 0, fun _ => 0⟩⟩, Extent.single 0⟩
  rcases start.loadsFile times.ready (by decide) (by decide) (boot_freeSlot boots) with
    ⟨kernel, process, blocks, served, step, isolated, processes, notNull, hasPage, volume⟩
  rw [empty] at processes
  exact ⟨booted, kernel, kernelBlocks, blocks, boots, mapped, served, step, isolated, ⟨process, notNull, processes⟩, hasPage,
    volume⟩

theorem FileLoaded.occupied {booted kernel : Kernel} {kernelBlocks : SpaceBlocks} {blocks : Nat -> ProcessBlocks}
    (file : FileLoaded booted kernel kernelBlocks blocks) : Occupied kernel 0 := by
  rcases file.processes with ⟨process, notNull, processes⟩
  refine ⟨by decide, ?_⟩
  rw [processes, Function.update_self]
  exact notNull

/-- The second slot is the next one. -/
theorem FileLoaded.free {booted kernel : Kernel} {kernelBlocks : SpaceBlocks} {blocks : Nat -> ProcessBlocks}
    (file : FileLoaded booted kernel kernelBlocks blocks) : processGetFreeSlot kernel = some 1 := by
  rcases file.processes with ⟨process, notNull, processes⟩
  have taken : ¬ decide (kernel.processes 0 = 0#32) = true := by
    rw [processes, Function.update_self]
    exact fun null => notNull (of_decide_eq_true null)
  have empty : decide (kernel.processes 1 = 0#32) = true := by
    rw [processes]
    rfl
  have slots : List.range MAX_PROCESSES = 0 :: 1 :: (List.range 18).map (· + 2) := rfl
  rw [processGetFreeSlot, slots, List.find?_cons_of_neg (p := fun slot => decide (kernel.processes slot = 0#32)) taken,
    List.find?_cons_of_pos (p := fun slot => decide (kernel.processes slot = 0#32)) empty]

/-- The call that loads a name without a root, and fails. -/
def loadNothing : MemoryCall := .loadProcess 0x1FF000#32 [0x41#8]

theorem loadNothing_served {kernel : Kernel} {first : Nat} (room : RoomFrom kernel first) (fits : first + 2 ≤ 25600) :
    exists after, CallServed (some kernel) loadNothing ∧ MemoryCall.step (some kernel) loadNothing = some after ∧
      after.processes = kernel.processes := by
  have kernelHeap := room.kernelHeap
  cases free : processGetFreeSlot kernel with
  | none =>
      have loads : loadProcess kernel 0x1FF000#32 [0x41#8] = some ⟨- ENOMEM, Option.none, kernel⟩ := by
        rw [loadProcess, free]
      refine ⟨kernel, fun other here => ?_, congrArg (Option.map _) loads, rfl⟩
      obtain rfl := Option.some.inj here
      exact fun some => absurd free some
  | some slot =>
      rcases room.kzalloc sizeofProcess (by decide) fits with ⟨notNull, _⟩
      rcases loadProcess_notPath kernelHeap free notNull (by decide : pathFormatIsValid [0x41#8] = false) 0x1FF000#32 with
        ⟨loading, loads, unrefused, unread⟩
      refine ⟨loading.kernel, fun other here => ?_, congrArg (Option.map _) loads, ?_⟩
      · obtain rfl := Option.some.inj here
        exact fun _ => LoadServed.of_unrefused kernelHeap free (by decide) loads unrefused
      · rcases loadProcess_outcome kernelHeap (by decide) loads unrefused with ⟨nothing, _⟩ | ⟨reads, _⟩
        · exact (congrArg Globals.processes nothing.globals).trans rfl
        · exact absurd reads unread

/-- Memory between the entry table and the pool is outside the structures. -/
theorem Isolated.outside_low {kernel : Kernel} {kernelBlocks : SpaceBlocks} {blocks : Nat -> ProcessBlocks}
    (isolated : Isolated kernel kernelBlocks blocks) {place : Word} (above : entryTableAddress + 25600 ≤ place.toNat)
    (below : place.toNat < 0x01000000) : OutsideStructures kernel place := by
  have kernelHeap := isolated.active.kernelHeap
  have placed := kernelHeap.wellPlaced
  rcases low_apart kernelHeap above below with ⟨table, apart⟩
  refine ⟨table, fun inside => ?_, fun slot occupied inside => ?_, fun slot _ extent _ _ inside => ?_⟩
  · exact apart kernelBlocks ((inPageStructures_iff isolated.active.space placed (by decide) place).mp inside)
  · have space := (isolated.processes slot occupied).map.space
    exact apart _ ((inPageStructures_iff space placed (by decide) place).mp inside)
  · have lower := inside.1
    rw [kernelHeap.start] at lower
    have start : KERNEL_HEAP_START_ADDRESS.toNat = 0x01000000 := rfl
    omega

/-- The programs are isolated after the boot, as there are none. -/
theorem boot_isolatedState {store : Store} {sectors : Int -> Nat -> Byte} {stray : Int -> Byte} {entries : Int -> Byte}
    {booted : Kernel} (boots : boot (Kernel.loaded store sectors stray) entries = some booted)
    (mapped : booted.kernelDirectory ≠ 0#32) : IsolatedState (some booted) := by
  intro kernel here
  obtain rfl := Option.some.inj here
  rcases boot_kernelActive boots mapped with ⟨kernelBlocks, active⟩
  exact ⟨kernelBlocks, fun _ => ⟨Extent.single 0, ⟨0, ⟨0, 0, fun _ => 0⟩⟩, Extent.single 0⟩,
    active.isolated (boot_booted boots).processes _⟩

/-- A program may ask for a copy to memory below the heap. -/
theorem Isolated.copyServed {kernel : Kernel} {kernelBlocks : SpaceBlocks} {blocks : Nat -> ProcessBlocks}
    (isolated : Isolated kernel kernelBlocks blocks) {slot : Nat} (occupied : Occupied kernel slot) :
    CallServed (some kernel) (.copyFromUser (slotProcess kernel slot).task 0x100000#32 0x200000#32 16) := by
  intro other here
  obtain rfl := Option.some.inj here
  refine ⟨⟨by decide, slot, occupied, rfl⟩, ?_⟩
  rintro place ⟨count, below, rfl⟩
  have value : (0x200000#32 + BitVec.ofNat 32 count).toNat = 0x200000 + count := by
    rw [BitVec.toNat_add, BitVec.toNat_ofNat, BitVec.toNat_ofNat]
    omega
  apply isolated.outside_low
  · rw [value]
    unfold entryTableAddress
    omega
  · rw [value]
    omega

theorem FileLoaded.copyServed {booted kernel : Kernel} {kernelBlocks : SpaceBlocks} {blocks : Nat -> ProcessBlocks}
    (file : FileLoaded booted kernel kernelBlocks blocks) :
    CallServed (MemoryCall.step (some booted) loadFile)
      (.copyFromUser (slotProcess kernel 0).task 0x100000#32 0x200000#32 16) := by
  rw [file.step]
  exact file.isolated.copyServed file.occupied

/-- In every run from the boot, what a program can store to is its own. -/
theorem userPages_own {store : Store} {sectors : Int -> Nat -> Byte} {stray : Int -> Byte} {entries : Int -> Byte}
    {booted : Kernel} (boots : boot (Kernel.loaded store sectors stray) entries = some booted)
    (mapped : booted.kernelDirectory ≠ 0#32) (calls : List MemoryCall)
    (served : Run.Everywhere MemoryCall.step CallServed (some booted) calls) :
    Run.Throughout MemoryCall.step (fun state => forall kernel, state = some kernel -> UserPagesOwn kernel)
      (some booted) calls := by
  refine Run.throughout_of_invariant (fun state isolates kernel here => ?_)
    (fun _ _ isolates legal => isolates.step legal) _ calls (boot_isolatedState boots mapped) served
  rcases isolates kernel here with ⟨kernelBlocks, blocks, isolated⟩
  exact isolated.userPagesOwn

/-- Two programs are loaded, a load fails, and the second program has a copy made. -/
theorem userPages_own_two : exists booted kernel, boot fileVolume (fun _ => 0#8) = some booted ∧
    [loadFile, loadFile, loadNothing].foldl MemoryCall.step (some booted) = some kernel ∧
    Occupied kernel 0 ∧ Occupied kernel 1 ∧
    Run.Throughout MemoryCall.step (fun state => forall kernel, state = some kernel -> UserPagesOwn kernel) (some booted)
      [loadFile, loadFile, loadNothing, .copyFromUser (slotProcess kernel 1).task 0x100000#32 0x200000#32 16] := by
  rcases exists_fileLoaded with ⟨booted, loaded, kernelBlocks, blocks, file⟩
  rcases file.isolated.loadsFile file.volume (by decide) (by decide) file.free with
    ⟨both, process, blocks', served, step, isolated, processes, notNull, _, volume⟩
  have taken (slot : Nat) (small : slot < 2) : Occupied both slot := by
    refine ⟨Nat.lt_trans small (by decide), ?_⟩
    rw [processes]
    by_cases second : slot = 1
    · rw [second, Function.update_self]
      exact notNull
    · rw [Function.update_of_ne second, show slot = 0 by omega]
      exact file.occupied.2
  rcases loadNothing_served volume.room (by decide) with ⟨kernel, servedToo, fails, same⟩
  have occupied (slot : Nat) (small : slot < 2) : Occupied kernel slot := by
    refine ⟨(taken slot small).1, ?_⟩
    rw [same]
    exact (taken slot small).2
  have reached : [loadFile, loadFile, loadNothing].foldl MemoryCall.step (some booted) = some kernel := by
    rw [List.foldl_cons, file.step, List.foldl_cons, step]
    exact fails
  have later : IsolatedState (some kernel) := by
    rw [← fails]
    refine IsolatedState.step (fun other here => ?_) servedToo
    obtain rfl := Option.some.inj here
    exact ⟨kernelBlocks, blocks', isolated⟩
  rcases later kernel rfl with ⟨lastBlocks, lastProcesses, last⟩
  refine ⟨booted, kernel, file.boots, reached, occupied 0 (by decide), occupied 1 (by decide),
    userPages_own file.boots file.mapped _ ⟨file.served, ?_, ?_, ?_, trivial⟩⟩
  · rw [file.step]
    exact served
  · rw [file.step, step]
    exact servedToo
  · rw [file.step, step, fails]
    exact last.copyServed (occupied 1 (by decide))

/-- A copy may change a page table: the program can then store to a page below the heap. -/
theorem userPages_own_overwritten : exists booted kernel after, boot fileVolume (fun _ => 0#8) = some booted ∧
    PageStructuresServed booted 0x1FF000#32 [forwardSlash, 0x41#8] ∧
    [loadFile].foldl MemoryCall.step (some booted) = some kernel ∧
    [loadFile, .copyFromUser (slotProcess kernel 0).task 0#32 (imageEntry kernel 0 + 3#32) 1].foldl MemoryCall.step
      (some booted) = some after ∧ Occupied after 0 ∧
    userWritable after.words (after.words (slotPage after 0)) PROGRAM_VIRTUAL_ADDRESS = true ∧
    exists place, translate after.words (after.words (slotPage after 0)) PROGRAM_VIRTUAL_ADDRESS = some place ∧
      ¬ InImage (slotProcess after 0) place := by
  rcases exists_fileLoaded with ⟨booted, kernel, kernelBlocks, blocks, file⟩
  have kernelHeap := file.isolated.active.kernelHeap
  have total : kernel.heap.table.total.toNat = 25600 := congrArg BitVec.toNat kernelHeap.total
  rcases hands_of_freeFrom kernelHeap.wellPlaced file.volume.room.free (by rw [total]; decide)
    (show blocksFor (intToWord 1) = 1 by decide) with ⟨block, _, hands⟩
  rcases file.isolated.entryOverwritten file.occupied file.hasPage hands with ⟨after, returns, keeps, processes, word⟩
  have served := file.served booted rfl (fun none => absurd ((boot_freeSlot file.boots).symm.trans none) nofun)
  refine ⟨booted, kernel, after, file.boots, served.pages, file.step, ?_, ⟨by decide, ?_⟩,
    (file.isolated.processes 0 file.occupied).loses_image kernelHeap keeps processes word⟩
  · rw [List.foldl_cons, file.step]
    exact congrArg (Option.map _) returns
  · rw [processes]
    exact file.occupied.2

end Tasks
end LarvaOS
