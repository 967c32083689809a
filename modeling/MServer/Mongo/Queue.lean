import Mathlib.Data.List.Zip

namespace LMongo

inductive MQT where
  | count
  | find
  | fmod
  | insert
  | update
  | remove
  deriving DecidableEq, Repr

structure MongoQuery where
  qid : Int
  mqt : MQT
  deriving DecidableEq, Repr

structure MongoResult where
  qid : Int
  mqt : MQT
  code : Int
  deriving DecidableEq, Repr

inductive Worker where
  | idle
  | entered
  | running (q : MongoQuery) (res : MongoResult)
  | executed (q : MongoQuery) (res : MongoResult) (ok : Bool)
  deriving DecidableEq, Repr

structure State where
  query : List MongoQuery
  result : List MongoResult
  worker : Worker
  deriving DecidableEq, Repr

def init : State := ⟨[], [], .idle⟩

def submit (mqt : MQT) (qid : Int) (s : State) : State := { s with query := s.query ++ [⟨qid, mqt⟩] }

def count := submit .count
def find := submit .find
def findAndModify := submit .fmod
def insert := submit .insert
def update := submit .update
def remove := submit .remove

def doCommand (res : MongoResult) (ok : Bool) (code : Int) : Option (Bool × MongoResult) :=
  if (ok ∧ code = 0) ∨ (!ok ∧ code ≠ 0) then some (true, { res with code := code }) else none

def popQuery (s : State) : State :=
  match s.query with
  | [] => { s with worker := .idle }
  | q :: qs => { s with query := qs, worker := .running q ⟨q.qid, q.mqt, 0⟩ }

def isBusy (s : State) : Bool := s.worker != .idle

def busyJob (s : State) : Nat × Nat × Nat :=
  let finished := s.result.length
  let unfinished := s.query.length + if isBusy s then 1 else 0
  (finished, unfinished, finished + unfinished)

inductive Label where
  | submit (mqt : MQT) (qid : Int)
  | enter
  | ping (fail : Bool)
  | exec (ok : Bool) (code : Int)
  | post
  | deliver
  deriving DecidableEq, Repr

def step (s : State) : Label → Option State
  | .submit mqt qid => some (submit mqt qid s)
  | .enter => if s.worker = .idle then some { s with worker := .entered } else none
  | .ping fail =>
    if s.worker = .entered then some (if fail then { s with worker := .idle } else popQuery s)
    else none
  | .exec ok code =>
    match s.worker with
    | .running q res => (doCommand res ok code).map fun r => { s with worker := .executed q r.2 r.1 }
    | _ => none
  | .post =>
    match s.worker with
    | .executed _ res ok => some (popQuery { s with result := if ok then s.result ++ [res] else s.result })
    | _ => none
  | .deliver =>
    match s.result with
    | _ :: rs => some { s with result := rs }
    | [] => none

structure Ghost where
  submitted : List MongoQuery
  popped : List MongoQuery
  commands : List (Bool × Int)
  delivered : List MongoResult

def observe (s : State) (g : Ghost) : Label → Ghost
  | .submit mqt qid => { g with submitted := g.submitted ++ [⟨qid, mqt⟩] }
  | .ping fail => if fail then g else { g with popped := g.popped ++ s.query.take 1 }
  | .exec ok code => { g with commands := g.commands ++ [(ok, code)] }
  | .post => { g with popped := g.popped ++ s.query.take 1 }
  | .deliver => { g with delivered := g.delivered ++ s.result.take 1 }
  | .enter => g

def sysStep (sg : State × Ghost) (l : Label) : Option (State × Ghost) :=
  (step sg.1 l).map (·, observe sg.1 sg.2 l)

def run (ls : List Label) : Option (State × Ghost) := ls.foldlM sysStep (init, ⟨[], [], [], []⟩)

def resultOf (q : MongoQuery) (c : Bool × Int) : MongoResult := ⟨q.qid, q.mqt, c.2⟩

def CommandOk (c : Bool × Int) : Prop := (c.1 = true ∧ c.2 = 0) ∨ (c.1 = false ∧ c.2 ≠ 0)

def inflight : Worker → List MongoQuery
  | .running q _ => [q]
  | .executed q _ _ => [q]
  | _ => []

def WorkerOk (cmds commands : List (Bool × Int)) : Worker → Prop
  | .running q res => commands = cmds ∧ res = ⟨q.qid, q.mqt, 0⟩
  | .executed q res ok => ok = true ∧ ∃ c, commands = cmds ++ [c] ∧ res = resultOf q c
  | _ => commands = cmds

structure Inv (s : State) (g : Ghost) : Prop where
  popped_query : g.popped ++ s.query = g.submitted
  commands_ok : ∀ c ∈ g.commands, CommandOk c
  results : ∃ done cmds, g.popped = done ++ inflight s.worker ∧ done.length = cmds.length ∧
    g.delivered ++ s.result = List.zipWith resultOf done cmds ∧ WorkerOk cmds g.commands s.worker

theorem inv_popQuery {s : State} {g : Ghost} (done : List MongoQuery) (cmds : List (Bool × Int))
    (hpq : done ++ s.query = g.submitted) (hc : ∀ c ∈ g.commands, CommandOk c) (hp : g.popped = done)
    (hl : done.length = cmds.length) (hr : g.delivered ++ s.result = List.zipWith resultOf done cmds)
    (hcmd : g.commands = cmds) :
    Inv (popQuery s) { g with popped := g.popped ++ s.query.take 1 } := by
  subst hp
  unfold popQuery
  split
  · rename_i hq
    rw [hq] at hpq ⊢
    exact ⟨by simpa using hpq, hc, g.popped, cmds, by simp [inflight], hl, hr, hcmd⟩
  · rename_i q qs hq
    rw [hq] at hpq ⊢
    exact ⟨by simpa using hpq, hc, g.popped, cmds, by simp [inflight], hl, hr, hcmd, rfl⟩

theorem Inv.preserved {s s' : State} {g g' : Ghost} (hi : Inv s g) {l : Label}
    (h : sysStep (s, g) l = some (s', g')) : Inv s' g' := by
  obtain ⟨hpq, hc, done, cmds, hp, hl, hr, hw⟩ := hi
  unfold sysStep at h
  obtain ⟨s1, hs, heq⟩ := Option.map_eq_some'.1 h
  cases heq
  dsimp only at hs ⊢
  cases l with
  | submit mqt qid =>
    cases hs
    exact ⟨by simp [observe, submit, ← hpq], hc, done, cmds, hp, hl, hr, hw⟩
  | enter =>
    simp only [step] at hs
    split at hs
    · cases hs; rename_i hidle
      rw [hidle] at hp hw
      exact ⟨hpq, hc, done, cmds, hp, hl, hr, hw⟩
    · cases hs
  | ping fail =>
    simp only [step] at hs
    split at hs
    · cases hs; rename_i hent
      rw [hent] at hp hw
      cases fail
      · exact inv_popQuery done cmds (by simpa [inflight, hp] using hpq) hc (by simpa [inflight] using hp) hl hr hw
      · exact ⟨hpq, hc, done, cmds, by simpa [inflight] using hp, hl, hr, hw⟩
    · cases hs
  | exec ok code =>
    simp only [step] at hs
    split at hs
    · rename_i q res hrun
      obtain ⟨r, hd, rfl⟩ := Option.map_eq_some'.1 hs
      rw [hrun] at hp hw
      obtain ⟨hcmd, rfl⟩ := hw
      simp only [doCommand] at hd
      split at hd
      · cases hd
        refine ⟨hpq, ?_, done, cmds, by simpa [inflight] using hp, hl, hr, rfl, (ok, code),
          by simp [observe, hcmd], rfl⟩
        intro c hmem
        rcases List.mem_append.1 hmem with hmem | hmem
        · exact hc c hmem
        · simp only [List.mem_singleton] at hmem; subst hmem
          rename_i hok; simpa [CommandOk] using hok
      · cases hd
    · cases hs
  | post =>
    simp only [step] at hs
    split at hs
    · rename_i q res ok hex
      cases hs
      rw [hex] at hp hw
      obtain ⟨rfl, c, hcmd, rfl⟩ := hw
      simp only [inflight] at hp
      refine inv_popQuery (done ++ [q]) (cmds ++ [c]) ?_ hc hp (by simp [hl]) ?_ hcmd
      · simpa [hp] using hpq
      · simp [← List.append_assoc, hr, List.zipWith_append _ _ _ _ _ hl, resultOf]
    · cases hs
  | deliver =>
    simp only [step] at hs
    split at hs
    · rename_i r rs hres
      cases hs
      refine ⟨hpq, hc, done, cmds, hp, hl, ?_, hw⟩
      simp [observe, hres, ← hr]
    · cases hs

theorem inv_init : Inv init ⟨[], [], [], []⟩ :=
  ⟨rfl, fun _ h => (nomatch h), [], [], rfl, rfl, rfl, rfl⟩

theorem Inv.foldlM {ls : List Label} {sg sg' : State × Ghost} (hi : Inv sg.1 sg.2)
    (h : ls.foldlM sysStep sg = some sg') : Inv sg'.1 sg'.2 := by
  induction ls generalizing sg with
  | nil => cases h; exact hi
  | cons l ls ih =>
    obtain ⟨sg1, h1, h2⟩ := Option.bind_eq_some.1 h
    exact ih (hi.preserved h1) h2

theorem inv_run {ls : List Label} {s : State} {g : Ghost} (h : run ls = some (s, g)) : Inv s g :=
  inv_init.foldlM h

theorem WorkerOk.prefix {cmds commands : List (Bool × Int)} {w : Worker} (h : WorkerOk cmds commands w) :
    cmds <+: commands := by
  cases w with
  | running q res => exact h.1 ▸ List.prefix_refl _
  | executed q res ok => obtain ⟨-, c, rfl, -⟩ := h; exact List.prefix_append _ _
  | idle => exact h ▸ List.prefix_refl _
  | entered => exact h ▸ List.prefix_refl _

theorem zipWith_prefix {α β γ : Type} (f : α → β → γ) {a a' : List α} {b b' : List β}
    (ha : a <+: a') (hb : b <+: b') (hl : a.length = b.length) :
    List.zipWith f a b <+: List.zipWith f a' b' := by
  obtain ⟨t, rfl⟩ := ha
  obtain ⟨u, rfl⟩ := hb
  rw [List.zipWith_append _ _ _ _ _ hl]
  exact List.prefix_append _ _

theorem routine_delivers_in_submission_order (ls : List Label) {s : State} {g : Ghost}
    (h : run ls = some (s, g)) :
    g.popped ++ s.query = g.submitted ∧ (∀ c ∈ g.commands, CommandOk c) ∧
      g.delivered ++ s.result <+: List.zipWith resultOf g.submitted g.commands ∧
      (g.delivered ++ s.result).length + (inflight s.worker).length = g.popped.length := by
  obtain ⟨hpq, hc, done, cmds, hp, hl, hr, hw⟩ := inv_run h
  have hdone : done <+: g.submitted := hpq ▸ hp ▸ (List.prefix_append _ _).trans (List.prefix_append _ _)
  refine ⟨hpq, hc, hr ▸ zipWith_prefix resultOf hdone hw.prefix hl, ?_⟩
  simp [hr, hp, hl]

theorem routine_delivers_in_submission_order_sample :
    ∃ s g, run [.submit .find 1, .enter, .submit .insert 2, .ping false, .exec true 0, .post,
        .exec false 5, .deliver, .post, .deliver] = some (s, g) ∧
      g.popped ++ s.query = g.submitted ∧ (∀ c ∈ g.commands, CommandOk c) ∧
      g.delivered ++ s.result <+: List.zipWith resultOf g.submitted g.commands ∧
      (g.delivered ++ s.result).length + (inflight s.worker).length = g.popped.length :=
  ⟨_, _, rfl, routine_delivers_in_submission_order [.submit .find 1, .enter, .submit .insert 2,
    .ping false, .exec true 0, .post, .exec false 5, .deliver, .post, .deliver] rfl⟩

theorem WorkerOk.eq_of_inflight_nil {cmds commands : List (Bool × Int)} {w : Worker}
    (h : WorkerOk cmds commands w) (hin : inflight w = []) : commands = cmds := by
  cases w with
  | idle => exact h
  | entered => exact h
  | running => cases hin
  | executed => cases hin

theorem inflight_eq_nil {s : State} (h : isBusy s = false) : inflight s.worker = [] := by
  simp only [isBusy, bne_eq_false_iff_eq] at h
  simp [h, inflight]

@[simp] theorem busyJob_unfinished (s : State) :
    (busyJob s).2.1 = s.query.length + if isBusy s then 1 else 0 := rfl

@[simp] theorem busyJob_total (s : State) : (busyJob s).2.2 = s.result.length + (busyJob s).2.1 := rfl

theorem busy_job_quiescent (ls : List Label) {s : State} {g : Ghost} (h : run ls = some (s, g)) :
    busyJob s = (s.result.length, s.query.length + (if isBusy s then 1 else 0),
      s.result.length + (s.query.length + if isBusy s then 1 else 0)) ∧
    ((busyJob s).2.1 = 0 → s.query = [] ∧ inflight s.worker = [] ∧ g.popped = g.submitted) ∧
    ((busyJob s).2.2 = 0 → g.delivered = List.zipWith resultOf g.submitted g.commands ∧
      g.commands.length = g.submitted.length) := by
  obtain ⟨hpq, -, done, cmds, hp, hl, hr, hw⟩ := inv_run h
  have quiet : (busyJob s).2.1 = 0 → s.query = [] ∧ inflight s.worker = [] ∧ g.popped = g.submitted := by
    intro h0
    simp only [busyJob_unfinished, Nat.add_eq_zero, List.length_eq_zero] at h0
    have hb : isBusy s = false := by simpa using h0.2
    exact ⟨h0.1, inflight_eq_nil hb, by simpa [h0.1] using hpq⟩
  refine ⟨rfl, quiet, fun h0 => ?_⟩
  rw [busyJob_total, Nat.add_eq_zero, List.length_eq_zero] at h0
  obtain ⟨hq, hin, hpop⟩ := quiet h0.2
  rw [hw.eq_of_inflight_nil hin]
  rw [hin, List.append_nil] at hp
  rw [← hpop, hp]
  exact ⟨by simpa [h0.1] using hr, hl.symm⟩

theorem busy_job_quiescent_sample :
    ∃ s g, run [.submit .find 1, .enter, .submit .insert 2, .ping false, .exec true 0, .post,
        .exec false 5, .deliver, .post, .deliver] = some (s, g) ∧
      busyJob s = (s.result.length, s.query.length + (if isBusy s then 1 else 0),
        s.result.length + (s.query.length + if isBusy s then 1 else 0)) ∧
      ((busyJob s).2.1 = 0 → s.query = [] ∧ inflight s.worker = [] ∧ g.popped = g.submitted) ∧
      ((busyJob s).2.2 = 0 → g.delivered = List.zipWith resultOf g.submitted g.commands ∧
        g.commands.length = g.submitted.length) :=
  ⟨_, _, rfl, busy_job_quiescent [.submit .find 1, .enter, .submit .insert 2, .ping false,
    .exec true 0, .post, .exec false 5, .deliver, .post, .deliver] rfl⟩

end LMongo
