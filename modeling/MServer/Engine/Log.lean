import Mathlib.Data.List.Basic

namespace EngineLog

def LOG_PATH_MAX : Nat := 64

inductive LogSize where
  | s
  | m
  | l
deriving DecidableEq, Repr

inductive LogType where
  | file
  | lprintf
  | mongodb
  | cprintf
deriving DecidableEq, Repr

structure LogOne where
  tm : Int
  len : Nat
  out : LogType
  path : String
  ctx : List UInt8
deriving DecidableEq, Repr

structure LogArgs where
  isDaemon : Bool
  printfPath : String
  mongodbPath : String

inductive Sink where
  | file (path : String)
  | stdout
deriving DecidableEq, Repr

inductive Out where
  | time (sink : Sink) (pfx : String) (tm : Int)
  | text (sink : Sink) (bytes : List UInt8)
  | newline (sink : Sink)
deriving DecidableEq, Repr

structure State where
  cache : List LogOne
  flush : List LogOne
  files : List String
  written : List Out
deriving DecidableEq, Repr

def init : State := ⟨[], [], [], []⟩

section
variable (LOG_MAX_LENGTH : Nat)

def LOG_CTX_SIZE : LogSize → Nat
  | .s => 64
  | .m => 1024
  | .l => LOG_MAX_LENGTH

def allocateOne (len : Nat) : Option LogSize :=
  let len := min len LOG_MAX_LENGTH
  [LogSize.s, .m, .l].find? fun lt => decide (len ≤ LOG_CTX_SIZE LOG_MAX_LENGTH lt)

def setCtx (lt : LogSize) (tm : Int) (path : String) (ctx : List UInt8) (len : Nat) (out : LogType) :
    LogOne :=
  let sz := min len (LOG_CTX_SIZE LOG_MAX_LENGTH lt)
  ⟨tm, sz, out, path.take (LOG_PATH_MAX - 1), ctx.take sz⟩

def writeCache (tm : Int) (path : String) (ctx : List UInt8) (len : Nat) (out : LogType) (s : State) :
    Int × State :=
  match allocateOne LOG_MAX_LENGTH (len + 1) with
  | none => (-1, s)
  | some lt => (0, { s with cache := s.cache ++ [setCtx LOG_MAX_LENGTH lt tm path ctx len out] })

theorem allocateOne_isSome (len : Nat) : (allocateOne LOG_MAX_LENGTH len).isSome := by
  simp only [allocateOne, List.find?, LOG_CTX_SIZE, min_le_right, decide_True]
  split <;> (try split) <;> rfl

def setCtxStores (lt : LogSize) (ctx : List UInt8) (len : Nat) : List (Nat × List UInt8) :=
  let sz := min len (LOG_CTX_SIZE LOG_MAX_LENGTH lt)
  [(0, ctx.take sz), (len, [0])]

theorem LOG_CTX_SIZE_le (lt : LogSize) : LOG_CTX_SIZE LOG_MAX_LENGTH lt ≤ LOG_MAX_LENGTH + 1024 := by
  cases lt <;> simp only [LOG_CTX_SIZE] <;> omega

theorem writeCache_terminator_overruns (ctx : List UInt8) :
    ∃ lt, allocateOne LOG_MAX_LENGTH (LOG_MAX_LENGTH + 1024 + 1) = some lt ∧
      (LOG_MAX_LENGTH + 1024, [0]) ∈ setCtxStores LOG_MAX_LENGTH lt ctx (LOG_MAX_LENGTH + 1024) ∧
      LOG_CTX_SIZE LOG_MAX_LENGTH lt ≤ LOG_MAX_LENGTH + 1024 := by
  obtain ⟨lt, hlt⟩ := Option.isSome_iff_exists.1 (allocateOne_isSome LOG_MAX_LENGTH (LOG_MAX_LENGTH + 1024 + 1))
  exact ⟨lt, hlt, by simp [setCtxStores], LOG_CTX_SIZE_le LOG_MAX_LENGTH lt⟩

end

def swap (s : State) : Bool × State :=
  if s.flush ≠ [] then (false, s) else (true, { s with flush := s.cache, cache := s.flush })

theorem swap_of_nil {s : State} (h : s.flush = []) : swap s = (true, { s with flush := s.cache, cache := [] }) := by
  simp [swap, h]

theorem swap_of_ne_nil {s : State} (h : s.flush ≠ []) : swap s = (false, s) := if_pos h

theorem swap_written (s : State) : (swap s).2.written = s.written := by
  unfold swap
  split <;> rfl

structure Io where
  fopen : Nat → Bool
  writes : Nat → Nat

def flushOneCtx (path pfx : String) (one : LogOne) (writes : Nat) : List Out :=
  [Out.time (.file path) pfx one.tm, .text (.file path) (one.ctx.take one.len), .newline (.file path)].take writes

def flushOneFile (files : List String) (opened : Bool) (writes : Nat) (path pfx : String) (one : LogOne) :
    List String × List Out :=
  if path ∈ files then (files, flushOneCtx path pfx one writes)
  else if opened then (path :: files, flushOneCtx path pfx one writes)
  else (files, [])

def formatToScreen (pfx : String) (one : LogOne) : List Out :=
  [.time .stdout pfx one.tm, .text .stdout (one.ctx.takeWhile (· ≠ 0)), .newline .stdout]

def flushOne (args : LogArgs) (files : List String) (opened : Bool) (writes : Nat) (one : LogOne) :
    List String × List Out :=
  match one.out with
  | .file => flushOneFile files opened writes one.path "" one
  | .lprintf =>
    let r := flushOneFile files opened writes args.printfPath "LP" one
    (r.1, r.2 ++ if args.isDaemon then [] else formatToScreen "LP" one)
  | .mongodb => flushOneFile files opened writes args.mongodbPath "" one
  | .cprintf =>
    let r := flushOneFile files opened writes args.printfPath "CP" one
    (r.1, r.2 ++ if args.isDaemon then [] else formatToScreen "CP" one)

def flushLoop (args : LogArgs) (io : Io) : Nat → List String → List LogOne → List String × List Out
  | _, files, [] => (files, [])
  | i, files, one :: rest =>
    if one.len = 0 then flushLoop args io (i + 1) files rest
    else
      let r := flushOne args files (io.fopen i) (io.writes i) one
      ((flushLoop args io (i + 1) r.1 rest).1, r.2 ++ (flushLoop args io (i + 1) r.1 rest).2)

def flush (args : LogArgs) (io : Io) (s : State) : State :=
  let r := flushLoop args io 0 s.files s.flush
  ⟨s.cache, s.flush.map fun one => { one with len := 0 }, r.1, s.written ++ r.2⟩

def collectMem (s : State) : State := { s with flush := [] }

def closeFiles (s : State) : State := { s with files := [] }

def logPath (args : LogArgs) (one : LogOne) : String :=
  match one.out with
  | .file => one.path
  | .lprintf | .cprintf => args.printfPath
  | .mongodb => args.mongodbPath

def logPrefix : LogType → String
  | .lprintf => "LP"
  | .cprintf => "CP"
  | .file | .mongodb => ""

def echoed (args : LogArgs) : LogType → Bool
  | .lprintf | .cprintf => !args.isDaemon
  | .file | .mongodb => false

def line (sink : Sink) (pfx : String) (tm : Int) (text : List UInt8) : List Out :=
  [.time sink pfx tm, .text sink text, .newline sink]

def entryLines (args : LogArgs) (one : LogOne) : List Out :=
  line (.file (logPath args one)) (logPrefix one.out) one.tm (one.ctx.take one.len) ++
    if echoed args one.out then line .stdout (logPrefix one.out) one.tm (one.ctx.takeWhile (· ≠ 0)) else []

def Reliable (io : Io) : Prop := ∀ i, io.fopen i = true ∧ 3 ≤ io.writes i

theorem flushOneFile_sublist (files : List String) (opened : Bool) (writes : Nat) (path pfx : String)
    (one : LogOne) :
    List.Sublist (flushOneFile files opened writes path pfx one).2
      (line (.file path) pfx one.tm (one.ctx.take one.len)) := by
  unfold flushOneFile
  split_ifs
  · exact List.take_sublist _ _
  · exact List.take_sublist _ _
  · exact List.nil_sublist _

theorem flushOneFile_opened (files : List String) {writes : Nat} (hw : 3 ≤ writes) (path pfx : String)
    (one : LogOne) :
    (flushOneFile files true writes path pfx one).2 = line (.file path) pfx one.tm (one.ctx.take one.len) := by
  have hctx : flushOneCtx path pfx one writes = line (.file path) pfx one.tm (one.ctx.take one.len) :=
    List.take_of_length_le hw
  unfold flushOneFile
  split_ifs with h1 h2
  exacts [hctx, hctx, absurd rfl h2]

theorem flushOne_eq (args : LogArgs) (files : List String) (opened : Bool) (writes : Nat) (one : LogOne) :
    flushOne args files opened writes one =
      ((flushOneFile files opened writes (logPath args one) (logPrefix one.out) one).1,
        (flushOneFile files opened writes (logPath args one) (logPrefix one.out) one).2 ++
          if echoed args one.out then formatToScreen (logPrefix one.out) one else []) := by
  unfold flushOne logPath
  cases one.out <;> cases hd : args.isDaemon <;> simp [logPrefix, echoed, hd]

theorem flushOne_sublist (args : LogArgs) (files : List String) (opened : Bool) (writes : Nat) (one : LogOne) :
    List.Sublist (flushOne args files opened writes one).2 (entryLines args one) := by
  rw [flushOne_eq]
  exact (flushOneFile_sublist ..).append (List.Sublist.refl _)

theorem flushOne_reliable (args : LogArgs) (files : List String) {writes : Nat} (hw : 3 ≤ writes)
    (one : LogOne) : (flushOne args files true writes one).2 = entryLines args one := by
  rw [flushOne_eq, flushOneFile_opened files hw]
  rfl

theorem filter_cons_live {one : LogOne} (h : ¬one.len = 0) (rest : List LogOne) :
    (one :: rest).filter (·.len ≠ 0) = one :: rest.filter (·.len ≠ 0) :=
  List.filter_cons_of_pos (by simpa using h)

theorem flushLoop_sublist (args : LogArgs) (io : Io) (xs : List LogOne) (i : Nat) (files : List String) :
    List.Sublist (flushLoop args io i files xs).2 ((xs.filter (·.len ≠ 0)).flatMap (entryLines args)) := by
  induction xs generalizing i files with
  | nil => exact List.nil_sublist _
  | cons one rest ih =>
    by_cases h : one.len = 0
    · simpa [flushLoop, h] using ih (i + 1) files
    · simp only [flushLoop, if_neg h, filter_cons_live h, List.flatMap_cons]
      exact (flushOne_sublist ..).append (ih ..)

theorem flushLoop_reliable (args : LogArgs) {io : Io} (hio : Reliable io) (xs : List LogOne) (i : Nat)
    (files : List String) :
    (flushLoop args io i files xs).2 = (xs.filter (·.len ≠ 0)).flatMap (entryLines args) := by
  induction xs generalizing i files with
  | nil => rfl
  | cons one rest ih =>
    by_cases h : one.len = 0
    · simpa [flushLoop, h] using ih (i + 1) files
    · obtain ⟨hopen, hw⟩ := hio i
      simp only [flushLoop, if_neg h, filter_cons_live h, List.flatMap_cons, hopen,
        flushOne_reliable args files hw, ih]

theorem filter_map_cleared (xs : List LogOne) :
    (xs.map fun one => { one with len := 0 }).filter (·.len ≠ 0) = [] :=
  List.filter_eq_nil_iff.2 (by simp)

inductive Label where
  | write (tm : Int) (path : String) (ctx : List UInt8) (len : Nat) (out : LogType)
  | swap
  | flush (io : Io)
  | collectMem
  | closeFiles

structure Ghost where
  appended : List LogOne
  dispatched : List LogOne
  flushed : Bool

section
variable (LOG_MAX_LENGTH : Nat) (args : LogArgs)

def step (s : State) : Label → State
  | .write tm path ctx len out => (writeCache LOG_MAX_LENGTH tm path ctx len out s).2
  | .swap => (swap s).2
  | .flush io => flush args io s
  | .collectMem => collectMem s
  | .closeFiles => closeFiles s

def observe (s : State) (g : Ghost) : Label → Ghost
  | .write tm path ctx len out =>
    { g with appended := g.appended ++
        ((allocateOne LOG_MAX_LENGTH (len + 1)).map fun lt => setCtx LOG_MAX_LENGTH lt tm path ctx len out).toList }
  | .swap => { g with flushed := g.flushed && !(swap s).1 }
  | .flush _ => { g with dispatched := g.dispatched ++ s.flush.filter (·.len ≠ 0), flushed := true }
  | .collectMem | .closeFiles => g

def enabled (g : Ghost) : Label → Bool
  | .collectMem => g.flushed
  | _ => true

def sysStep (sg : State × Ghost) (l : Label) : Option (State × Ghost) :=
  if enabled sg.2 l then some (step LOG_MAX_LENGTH args sg.1 l, observe LOG_MAX_LENGTH sg.1 sg.2 l) else none

def run (ls : List Label) : Option (State × Ghost) := ls.foldlM (sysStep LOG_MAX_LENGTH args) (init, ⟨[], [], true⟩)

structure Inv (s : State) (g : Ghost) : Prop where
  pending : g.dispatched ++ (s.flush ++ s.cache).filter (·.len ≠ 0) = g.appended.filter (·.len ≠ 0)
  written : List.Sublist s.written (g.dispatched.flatMap (entryLines args))
  cleared : g.flushed = true → ∀ one ∈ s.flush, one.len = 0

def Exact (s : State) (g : Ghost) : Prop := s.written = g.dispatched.flatMap (entryLines args)

theorem inv_init : Inv args init ⟨[], [], true⟩ := ⟨rfl, List.nil_sublist _, fun _ _ h => nomatch h⟩

theorem Inv.write {s : State} {g : Ghost} (hi : Inv args s g) (tm : Int) (path : String) (ctx : List UInt8)
    (len : Nat) (out : LogType) :
    Inv args (step LOG_MAX_LENGTH args s (.write tm path ctx len out))
      (observe LOG_MAX_LENGTH s g (.write tm path ctx len out)) := by
  simp only [step, observe, writeCache]
  cases allocateOne LOG_MAX_LENGTH (len + 1) with
  | none => simpa using hi
  | some lt =>
    refine ⟨?_, hi.written, hi.cleared⟩
    have hp := hi.pending
    simp only [Option.map_some', Option.toList_some, List.filter_append, List.append_assoc] at hp ⊢
    rw [← hp, List.append_assoc, List.append_assoc]

theorem Inv.swap {s : State} {g : Ghost} (hi : Inv args s g) :
    Inv args (step LOG_MAX_LENGTH args s .swap) (observe LOG_MAX_LENGTH s g .swap) := by
  by_cases hf : s.flush = []
  · simp only [step, observe, swap_of_nil hf]
    exact ⟨by simpa [hf] using hi.pending, hi.written, fun h => by simp at h⟩
  · simpa [step, observe, swap_of_ne_nil hf] using hi

theorem Inv.flush {s : State} {g : Ghost} (hi : Inv args s g) (io : Io) :
    Inv args (step LOG_MAX_LENGTH args s (.flush io)) (observe LOG_MAX_LENGTH s g (.flush io)) := by
  have hp := hi.pending
  rw [List.filter_append] at hp
  refine ⟨?_, ?_, fun _ one h => ?_⟩
  · simpa only [step, observe, EngineLog.flush, List.filter_append, filter_map_cleared, List.nil_append,
      List.append_assoc] using hp
  · simp only [step, observe, EngineLog.flush, List.flatMap_append]
    exact hi.written.append (flushLoop_sublist ..)
  · obtain ⟨x, -, rfl⟩ := List.mem_map.1 h
    rfl

theorem Inv.collectMem {s : State} {g : Ghost} (hi : Inv args s g) (hg : g.flushed = true) :
    Inv args (step LOG_MAX_LENGTH args s .collectMem) (observe LOG_MAX_LENGTH s g .collectMem) := by
  have hnil : s.flush.filter (·.len ≠ 0) = [] := List.filter_eq_nil_iff.2 (by simpa using hi.cleared hg)
  have hp := hi.pending
  rw [List.filter_append, hnil, List.nil_append] at hp
  exact ⟨hp, hi.written, fun _ one h => nomatch h⟩

theorem Inv.preserved {sg sg' : State × Ghost} (hi : Inv args sg.1 sg.2) {l : Label}
    (h : sysStep LOG_MAX_LENGTH args sg l = some sg') : Inv args sg'.1 sg'.2 := by
  unfold sysStep at h
  split at h
  · rename_i hen
    cases h
    cases l with
    | write tm path ctx len out => exact hi.write LOG_MAX_LENGTH args tm path ctx len out
    | swap => exact hi.swap LOG_MAX_LENGTH args
    | flush io => exact hi.flush LOG_MAX_LENGTH args io
    | collectMem => exact hi.collectMem LOG_MAX_LENGTH args hen
    | closeFiles => exact ⟨hi.pending, hi.written, hi.cleared⟩
  · cases h

theorem Inv.foldlM {ls : List Label} {sg sg' : State × Ghost} (hi : Inv args sg.1 sg.2)
    (h : ls.foldlM (sysStep LOG_MAX_LENGTH args) sg = some sg') : Inv args sg'.1 sg'.2 := by
  induction ls generalizing sg with
  | nil => cases h; exact hi
  | cons l ls ih =>
    obtain ⟨sg1, h1, h2⟩ := Option.bind_eq_some.1 h
    exact ih (hi.preserved LOG_MAX_LENGTH args h1) h2

theorem Exact.preserved {sg sg' : State × Ghost} (he : Exact args sg.1 sg.2) {l : Label}
    (hio : ∀ io, l = .flush io → Reliable io) (h : sysStep LOG_MAX_LENGTH args sg l = some sg') :
    Exact args sg'.1 sg'.2 := by
  unfold sysStep at h
  split at h
  · cases h
    cases l with
    | write tm path ctx len out =>
      simp only [Exact, step, observe, writeCache]
      cases allocateOne LOG_MAX_LENGTH (len + 1) <;> exact he
    | swap => simpa only [Exact, step, observe, swap_written] using he
    | flush io =>
      simp only [Exact, step, observe, EngineLog.flush, List.flatMap_append, flushLoop_reliable args (hio io rfl)]
      rw [show sg.1.written = _ from he]
    | collectMem => exact he
    | closeFiles => exact he
  · cases h

theorem Exact.foldlM {ls : List Label} {sg sg' : State × Ghost} (he : Exact args sg.1 sg.2)
    (hio : ∀ io, Label.flush io ∈ ls → Reliable io) (h : ls.foldlM (sysStep LOG_MAX_LENGTH args) sg = some sg') :
    Exact args sg'.1 sg'.2 := by
  induction ls generalizing sg with
  | nil => cases h; exact he
  | cons l ls ih =>
    obtain ⟨sg1, h1, h2⟩ := Option.bind_eq_some.1 h
    exact ih (he.preserved LOG_MAX_LENGTH args (fun io hl => hio io (hl ▸ List.mem_cons_self _ _)) h1)
      (fun io hm => hio io (List.mem_cons_of_mem _ hm)) h2

end

end EngineLog
