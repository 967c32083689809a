import Mathlib.Data.List.Basic

namespace Lua

inductive Value where
  | nil
  | bool (b : Bool)
  | int (n : Int)
  | str (s : String)
  | cfunction (name : String)
  | table (t : Nat)
  | udata (u : Nat)
deriving DecidableEq, Repr

def Value.type : Value → Nat
  | .nil => 0
  | .bool _ => 1
  | .int _ => 3
  | .str _ => 4
  | .table _ => 5
  | .cfunction _ => 6
  | .udata _ => 7

def Value.truthy : Value → Bool
  | .nil => false
  | .bool b => b
  | _ => true

structure Table where
  entries : List (Value × Value)
  meta : Option Nat
deriving DecidableEq, Repr

namespace Table

def rawget (t : Table) (k : Value) : Value := ((t.entries.find? fun e => e.1 = k).map Prod.snd).getD .nil

def rawset (t : Table) (k v : Value) : Table :=
  { t with entries := t.entries.filter (fun e => e.1 ≠ k) ++ if v = .nil then [] else [(k, v)] }

theorem rawget_rawset (t : Table) (k v k' : Value) :
    (t.rawset k v).rawget k' = if k' = k then v else t.rawget k' := by
  have hpred : (fun e : Value × Value => !decide (e.1 = k) && decide (e.1 = k')) =
      fun e => decide (e.1 = k') && !decide (k' = k) := by
    funext e; by_cases h : e.1 = k' <;> simp [h]
  have hnone : t.entries.find? (fun _ => false) = none := List.find?_eq_none.2 fun _ _ => Bool.false_ne_true
  by_cases hk : k' = k <;> by_cases hv : v = .nil <;>
    simp [rawget, rawset, List.find?_append, List.find?_filter, hpred, hk, hv, hnone, Ne.symm]

end Table

def NoMetaField (tables : List Table) (t : Table) (f : String) : Prop :=
  ∀ m, t.meta = some m → ∃ tm, tables[m]? = some tm ∧ tm.rawget (.str f) = .nil

theorem NoMetaField.append {tables : List Table} {t : Table} {f : String} (h : NoMetaField tables t f)
    (ts : List Table) : NoMetaField (tables ++ ts) t f := fun m hm => by
  obtain ⟨tm, htm, hf⟩ := h m hm
  exact ⟨tm, by rw [List.getElem?_append_left (List.getElem?_eq_some_iff.1 htm).1, htm], hf⟩

theorem noMetaField_of_meta_none {tables : List Table} {t : Table} (h : t.meta = none) (f : String) :
    NoMetaField tables t f :=
  fun _ hm => nomatch h.symm.trans hm

theorem NoMetaField.self {ts : List Table} {n : Nat} {t : Table} (h : ts[n]? = some t) (hm : t.meta = some n)
    {f : String} (hf : t.rawget (.str f) = .nil) : NoMetaField ts t f := fun m hm' => by
  obtain rfl : n = m := Option.some_injective _ (hm.symm.trans hm')
  exact ⟨t, h, hf⟩

theorem getElem?_set_rawset {ts : List Table} {i j : Nat} {ti tj : Table} (hi : ts[i]? = some ti)
    (hj : ts[j]? = some tj) (k v : Value) :
    ∃ tj', (ts.set i (ti.rawset k v))[j]? = some tj' ∧ tj'.meta = tj.meta ∧
      ∀ k', tj'.rawget k' = if i = j ∧ k' = k then v else tj.rawget k' := by
  by_cases h : i = j
  · subst h
    obtain rfl : ti = tj := Option.some_injective _ (hi.symm.trans hj)
    exact ⟨ti.rawset k v, by simp [(List.getElem?_eq_some_iff.1 hi).1], rfl,
      fun k' => by simp [Table.rawget_rawset]⟩
  · exact ⟨tj, by rw [List.getElem?_set_ne h, hj], rfl, fun k' => by simp [h]⟩

theorem NoMetaField.set_rawset {ts : List Table} {t : Table} {f : String} (h : NoMetaField ts t f) {i : Nat}
    {ti : Table} (hi : ts[i]? = some ti) {k : Value} (hk : k ≠ .str f) (v : Value) :
    NoMetaField (ts.set i (ti.rawset k v)) t f := fun m hm => by
  obtain ⟨tm, htm, hf⟩ := h m hm
  obtain ⟨tm', htm', -, hget⟩ := getElem?_set_rawset hi htm k v
  exact ⟨tm', htm', by simp [hget, hk.symm, hf]⟩

structure Udata where
  ptr : Option Nat
  meta : Option Nat
deriving DecidableEq, Repr

structure State where
  stack : List Value
  tables : List Table
  udata : List Udata
  nextObj : Nat
  deleted : List Nat
deriving DecidableEq, Repr

def LUA_REGISTRYINDEX : Int := -1001000

def MAXTAGLOOP : Nat := 2000

namespace State

variable (L : State)

def absIndex (idx : Int) : Option Nat :=
  if 0 < idx ∧ idx ≤ L.stack.length then some idx.toNat
  else if idx < 0 ∧ -idx ≤ L.stack.length then some (L.stack.length + 1 - (-idx).toNat)
  else none

def get (idx : Int) : Option Value :=
  if idx = LUA_REGISTRYINDEX then some (.table 0)
  else (L.absIndex idx).bind fun i => L.stack[i - 1]?

theorem get_pos {i : Nat} (hi : 0 < i) : L.get i = L.stack[i - 1]? := by
  unfold get absIndex
  rw [if_neg (by unfold LUA_REGISTRYINDEX; omega)]
  by_cases h : i ≤ L.stack.length
  · rw [if_pos (by omega)]; simp
  · rw [if_neg (by omega), if_neg (by omega), Option.none_bind, List.getElem?_eq_none (by omega)]

theorem get_neg {n : Nat} (hn : 0 < n) (hb : n < 1001000) : L.get (-n) = L.stack.reverse[n - 1]? := by
  unfold get absIndex
  rw [if_neg (by unfold LUA_REGISTRYINDEX; omega), if_neg (by omega)]
  by_cases h : n ≤ L.stack.length
  · rw [if_pos (by omega), Option.some_bind, List.getElem?_reverse (by omega)]
    congr 1; omega
  · rw [if_neg (by omega), Option.none_bind, List.getElem?_eq_none (by simp; omega)]

@[simp] theorem get_one : L.get 1 = L.stack[0]? := L.get_pos Nat.one_pos
@[simp] theorem get_two : L.get 2 = L.stack[1]? := L.get_pos Nat.two_pos

@[simp] theorem get_neg_one : L.get (-1) = L.stack.getLast? :=
  (L.get_neg Nat.one_pos (by decide)).trans (by rw [← List.head?_reverse, List.head?_eq_getElem?])

@[simp] theorem get_neg_two : L.get (-2) = L.stack.dropLast.getLast? :=
  (L.get_neg Nat.two_pos (by decide)).trans (by rw [← List.head?_reverse, ← List.tail_reverse, List.head?_tail])

@[simp] theorem get_neg_three : L.get (-3) = L.stack.dropLast.dropLast.getLast? :=
  (L.get_neg (n := 3) (by decide) (by decide)).trans (by
    rw [← List.head?_reverse, ← List.tail_reverse, ← List.tail_reverse, List.head?_tail, List.getElem?_tail])

def push (v : Value) : State := { L with stack := L.stack ++ [v] }

def pop (n : Nat) : Option State :=
  if n ≤ L.stack.length then some { L with stack := L.stack.take (L.stack.length - n) } else none

@[simp] theorem pop_one :
    L.pop 1 = if L.stack = [] then none else some { L with stack := L.stack.dropLast } := by
  rcases h : L.stack with _ | ⟨a, s⟩ <;> simp [pop, h, List.dropLast_eq_take]

@[simp] theorem pop_two :
    L.pop 2 = if L.stack.dropLast = [] then none else some { L with stack := L.stack.dropLast.dropLast } := by
  simp only [pop, List.dropLast_eq_take, List.take_take, List.length_take, List.take_eq_nil_iff]
  split_ifs with h1 h2 h2
  · rcases h2 with h2 | h2
    · omega
    · simp [h2] at h1
  · congr 3; omega
  · rfl
  · omega

def settop (n : Nat) : State := { L with stack := L.stack.take n }

def pushvalue (idx : Int) : Option State := (L.get idx).map L.push

def pushstring (s : String) : State := L.push (.str s)

def pushboolean (b : Bool) : State := L.push (.bool b)

def pushcfunction (name : String) : State := L.push (.cfunction name)

def newtable : State :=
  { L with tables := L.tables ++ [⟨[], none⟩], stack := L.stack ++ [.table L.tables.length] }

def newuserdata (obj : Nat) : State :=
  { L with udata := L.udata ++ [⟨some obj, none⟩], stack := L.stack ++ [.udata L.udata.length] }

def isnil (idx : Int) : Option Bool := (L.get idx).map (· = .nil)

def istable (idx : Int) : Option Bool :=
  (L.get idx).map fun v => match v with
    | .table _ => true
    | _ => false

def toboolean (idx : Int) : Option Bool := (L.get idx).map Value.truthy

def metaOf : Value → Option (Option Nat)
  | .table t => (L.tables[t]?).map (·.meta)
  | .udata u => (L.udata[u]?).map (·.meta)
  | _ => some none

def index : Nat → Value → Value → Option Value
  | 0, _, _ => none
  | n + 1, t, k => do
    let raw ← match t with
      | .table i => (L.tables[i]?).map (·.rawget k)
      | _ => some .nil
    if raw ≠ .nil then pure raw
    else
      let m ← L.metaOf t
      let h ← match m with
        | some mt => (L.tables[mt]?).map (·.rawget (.str "__index"))
        | none => some .nil
      match t, h with
      | .table _, .nil => pure .nil
      | _, .nil => none
      | _, h => index n h k

def assign (t k v : Value) : Option State :=
  match t with
  | .table i => do
    let tb ← L.tables[i]?
    if k = .nil then none
    else if tb.rawget k = .nil then
      let h ← match tb.meta with
        | some mt => (L.tables[mt]?).map (·.rawget (.str "__newindex"))
        | none => some .nil
      if h = .nil then pure { L with tables := L.tables.set i (tb.rawset k v) } else none
    else pure { L with tables := L.tables.set i (tb.rawset k v) }
  | _ => none

def gettable (idx : Int) : Option State := do
  let t ← L.get idx
  let k ← L.get (-1)
  let v ← L.index MAXTAGLOOP t k
  let L ← L.pop 1
  pure (L.push v)

def settable (idx : Int) : Option State := do
  let t ← L.get idx
  let k ← L.get (-2)
  let v ← L.get (-1)
  let L ← L.pop 2
  L.assign t k v

def getfield (idx : Int) (k : String) : Option State := do
  let t ← L.get idx
  let v ← L.index MAXTAGLOOP t (.str k)
  pure (L.push v)

def setfield (idx : Int) (k : String) : Option State := do
  let t ← L.get idx
  let v ← L.get (-1)
  let L ← L.pop 1
  L.assign t (.str k) v

def setmetatable (idx : Int) : Option (Int × State) := do
  let obj ← L.get idx
  let mt ← L.get (-1)
  let m ← match mt with
    | .nil => some none
    | .table i => some (some i)
    | _ => none
  let L ← L.pop 1
  match obj with
  | .table i => do
    let tb ← L.tables[i]?
    pure (1, { L with tables := L.tables.set i { tb with meta := m } })
  | .udata u => do
    let d ← L.udata[u]?
    pure (1, { L with udata := L.udata.set u { d with meta := m } })
  | _ => none

def insert (idx : Int) : Option State := do
  let i ← L.absIndex idx
  let v ← L.stack.getLast?
  let rest := L.stack.dropLast
  pure { L with stack := rest.take (i - 1) ++ v :: rest.drop (i - 1) }

def remove (idx : Int) : Option State := do
  let i ← L.absIndex idx
  pure { L with stack := L.stack.eraseIdx (i - 1) }

def getmetatable (tname : String) : Option State := L.getfield LUA_REGISTRYINDEX tname

def newmetatable (tname : String) : Option (Int × State) := do
  let reg ← L.tables[0]?
  let old := reg.rawget (.str tname)
  if old ≠ .nil then pure (0, L.push old)
  else
    let t := L.tables.length
    let tables := (L.tables ++ [(⟨[(.str "__name", .str tname)], none⟩ : Table)]).set 0
      (reg.rawset (.str tname) (.table t))
    pure (1, { L with tables := tables }.push (.table t))

def getmetafield (obj : Int) (e : String) : Option (Nat × State) := do
  let v ← L.get obj
  let m ← L.metaOf v
  match m with
  | none => pure (0, L)
  | some mt => do
    let f := (← L.tables[mt]?).rawget (.str e)
    if f = .nil then pure (0, L) else pure (f.type, L.push f)

def checkudata (ud : Int) (tname : String) : Option Nat := do
  let v ← L.get ud
  match v with
  | .udata u => do
    let d ← L.udata[u]?
    let reg ← L.tables[0]?
    match d.meta with
    | some mt => if reg.rawget (.str tname) = .table mt then pure u else none
    | none => none
  | _ => none

theorem index_of_rawget {i : Nat} {tb : Table} (h : L.tables[i]? = some tb) {k : Value}
    (hk : tb.rawget k ≠ .nil) : L.index MAXTAGLOOP (.table i) k = some (tb.rawget k) := by
  have (n : Nat) : L.index (n + 1) (.table i) k = some (tb.rawget k) := by simp [index, h, hk]
  exact this 1999

theorem getmetatable_of_rawget {reg : Table} (hreg : L.tables[0]? = some reg) {tname : String} {mt : Nat}
    (h : reg.rawget (.str tname) = .table mt) : L.getmetatable tname = some (L.push (.table mt)) := by
  have hix := L.index_of_rawget hreg (k := .str tname) (by simp [h])
  simp [getmetatable, getfield, get, hix, h]

theorem index_succ_of_noMetaField {i : Nat} {tb : Table} (h : L.tables[i]? = some tb)
    (hm : NoMetaField L.tables tb "__index") (k : Value) (n : Nat) :
    L.index (n + 1) (.table i) k = some (tb.rawget k) := by
  by_cases hk : tb.rawget k = .nil
  · rcases hmeta : tb.meta with _ | m
    · simp [index, h, hk, metaOf, hmeta]
    · obtain ⟨tm, htm, hi⟩ := hm m hmeta
      simp [index, h, hk, metaOf, hmeta, htm, hi]
  · simp [index, h, hk]

theorem index_of_noMetaField {i : Nat} {tb : Table} (h : L.tables[i]? = some tb)
    (hm : NoMetaField L.tables tb "__index") (k : Value) :
    L.index MAXTAGLOOP (.table i) k = some (tb.rawget k) :=
  L.index_succ_of_noMetaField h hm k 1999

theorem assign_table {i : Nat} {tb : Table} (h : L.tables[i]? = some tb) {k : Value}
    (hk : k ≠ .nil) (hm : NoMetaField L.tables tb "__newindex") (v : Value) :
    L.assign (.table i) k v = some { L with tables := L.tables.set i (tb.rawset k v) } := by
  by_cases hr : tb.rawget k = .nil
  · rcases hmeta : tb.meta with _ | m
    · simp [assign, h, hk, hr, hmeta]
    · obtain ⟨tm, htm, hn⟩ := hm m hmeta
      simp [assign, h, hk, hr, hmeta, htm, hn]
  · simp [assign, h, hk, hr]

theorem push_tables (v : Value) : (L.push v).tables = L.tables := rfl

theorem push_withTables (v : Value) (T : List Table) :
    { L.push v with tables := T } = { L with tables := T }.push v :=
  rfl

theorem newtable_eq :
    L.newtable = { L with tables := L.tables ++ [(⟨[], none⟩ : Table)] }.push (.table L.tables.length) :=
  rfl

theorem pop_push (v : Value) : (L.push v).pop 1 = some L := by
  simp [pop, State.push]

theorem isnil_top (v : Value) : (L.push v).isnil (-1) = some (decide (v = .nil)) := by
  simp [isnil, State.push]

theorem istable_top (t : Nat) : (L.push (.table t)).istable (-1) = some true := by
  simp [istable, State.push]

theorem pushvalue_top (v : Value) : (L.push v).pushvalue (-1) = some ((L.push v).push v) := by
  simp [pushvalue, State.push]

theorem pushvalue_one (v w : Value) :
    ((L.push v).push w).pushvalue 1 = some (((L.push v).push w).push (L.stack.headD v)) := by
  cases h : L.stack <;> simp [pushvalue, State.push, h]

theorem getfield_top (i : Nat) (k : String) :
    (L.push (.table i)).getfield (-1) k =
      ((L.push (.table i)).index MAXTAGLOOP (.table i) (.str k)).bind fun v => some ((L.push (.table i)).push v) := by
  simp only [getfield, get_neg_one, State.push, List.getLast?_concat, Option.bind_eq_bind, Option.some_bind]
  rfl

theorem getfield_registry (reg : Table) (hreg : L.tables[0]? = some reg) {k : String} {t : Nat}
    (h : reg.rawget (.str k) = .table t) : L.getfield LUA_REGISTRYINDEX k = some (L.push (.table t)) :=
  L.getmetatable_of_rawget hreg h

theorem setfield_below {i : Nat} (tb : Table) (ht : L.tables[i]? = some tb)
    (hm : NoMetaField L.tables tb "__newindex") (v : Value) (k : String) :
    ((L.push (.table i)).push v).setfield (-2) k =
      some ({ L with tables := L.tables.set i (tb.rawset (.str k) v) }.push (.table i)) := by
  have h := (L.push (.table i)).assign_table ht (k := .str k) (by simp) hm v
  simp only [State.push] at h
  simp [setfield, State.push, h]

theorem setmetatable_below {i : Nat} (tb : Table) (ht : L.tables[i]? = some tb) (j : Nat) :
    ((L.push (.table i)).push (.table j)).setmetatable (-2) =
      some (1, { L with tables := L.tables.set i { tb with meta := some j } }.push (.table i)) := by
  simp [setmetatable, State.push, ht]

end State

structure SameHeap (L L' : State) : Prop where
  ptrs : L'.udata.map Udata.ptr = L.udata.map Udata.ptr
  deleted : L'.deleted = L.deleted
  nextObj : L'.nextObj = L.nextObj

theorem SameHeap.trans {L₁ L₂ L₃ : State} (h₁ : SameHeap L₁ L₂) (h₂ : SameHeap L₂ L₃) : SameHeap L₁ L₃ :=
  ⟨h₂.ptrs.trans h₁.ptrs, h₂.deleted.trans h₁.deleted, h₂.nextObj.trans h₁.nextObj⟩

theorem map_ptr_set_meta {ds : List Udata} {u : Nat} {d : Udata} (hd : ds[u]? = some d) (m : Option Nat) :
    (ds.set u { d with meta := m }).map Udata.ptr = ds.map Udata.ptr := by
  refine List.ext_getElem? fun j => ?_
  obtain ⟨hu, rfl⟩ := List.getElem?_eq_some_iff.1 hd
  by_cases h : u = j
  · subst h; simp [hu]
  · simp [List.getElem?_set, h]

def State.owned (L : State) : List Nat := (L.udata.map Udata.ptr).filterMap id

theorem SameHeap.ledger_eq {L L' : State} (h : SameHeap L L') :
    L'.owned ++ L'.deleted = L.owned ++ L.deleted := by
  simp only [State.owned, h.ptrs, h.deleted]

theorem State.owned_newuserdata (L : State) (obj : Nat) :
    (L.newuserdata obj).owned = L.owned ++ [obj] := by
  simp [State.owned, State.newuserdata]

namespace State

variable {L L' : State}

theorem assign_eq_some {t k v : Value} (h : L.assign t k v = some L') : ∃ ts, L' = { L with tables := ts } := by
  unfold assign at h
  split at h
  · simp only [Option.bind_eq_bind, Option.bind_eq_some] at h
    obtain ⟨tb, -, h⟩ := h
    split_ifs at h
    · split at h
      · simp only [Option.bind_eq_some] at h
        obtain ⟨y, -, h⟩ := h
        split_ifs at h
        cases h; exact ⟨_, rfl⟩
      · cases h; exact ⟨_, rfl⟩
    · cases h; exact ⟨_, rfl⟩
  · cases h

theorem sameHeap_pop {n : Nat} (h : L.pop n = some L') : SameHeap L L' := by
  unfold pop at h
  split at h <;> cases h
  exact ⟨rfl, rfl, rfl⟩

theorem sameHeap_pushvalue {i : Int} (h : L.pushvalue i = some L') : SameHeap L L' := by
  obtain ⟨v, -, rfl⟩ := Option.map_eq_some'.1 h
  exact ⟨rfl, rfl, rfl⟩

theorem sameHeap_settable {i : Int} (h : L.settable i = some L') : SameHeap L L' := by
  simp only [settable, Option.bind_eq_bind, Option.bind_eq_some] at h
  obtain ⟨t, -, k, -, v, -, L₁, h₁, h⟩ := h
  obtain ⟨ts, rfl⟩ := assign_eq_some h
  exact (sameHeap_pop h₁).trans ⟨rfl, rfl, rfl⟩

theorem sameHeap_gettable {i : Int} (h : L.gettable i = some L') : SameHeap L L' := by
  simp only [gettable, Option.bind_eq_bind, Option.bind_eq_some, Option.pure_def, Option.some.injEq] at h
  obtain ⟨t, -, k, -, v, -, L₁, h₁, rfl⟩ := h
  exact (sameHeap_pop h₁).trans ⟨rfl, rfl, rfl⟩

theorem sameHeap_getmetatable {tname : String} (h : L.getmetatable tname = some L') : SameHeap L L' := by
  simp only [getmetatable, getfield, Option.bind_eq_bind, Option.bind_eq_some, Option.pure_def,
    Option.some.injEq] at h
  obtain ⟨t, -, v, -, rfl⟩ := h
  exact ⟨rfl, rfl, rfl⟩

theorem sameHeap_setmetatable {i : Int} {r : Int} (h : L.setmetatable i = some (r, L')) : SameHeap L L' := by
  simp only [setmetatable, Option.bind_eq_bind, Option.bind_eq_some] at h
  obtain ⟨obj, -, mt, -, h⟩ := h
  split at h <;> simp only [Option.some_bind, Option.none_bind, Option.bind_eq_some, reduceCtorEq] at h <;>
    obtain ⟨L₁, h₁, h⟩ := h <;> refine (sameHeap_pop h₁).trans ?_ <;> split at h <;>
    simp only [Option.bind_eq_some, Option.pure_def, Option.some.injEq, Prod.mk.injEq, reduceCtorEq] at h
  all_goals obtain ⟨d, hd, -, rfl⟩ := h
  all_goals first | exact ⟨rfl, rfl, rfl⟩ | exact ⟨map_ptr_set_meta hd _, rfl, rfl⟩

theorem sameHeap_insert {i : Int} (h : L.insert i = some L') : SameHeap L L' := by
  simp only [insert, Option.bind_eq_bind, Option.bind_eq_some, Option.pure_def, Option.some.injEq] at h
  obtain ⟨j, -, v, -, rfl⟩ := h
  exact ⟨rfl, rfl, rfl⟩

theorem sameHeap_getmetafield {obj : Int} {e : String} {n : Nat} (h : L.getmetafield obj e = some (n, L')) :
    SameHeap L L' := by
  simp only [getmetafield, Option.bind_eq_bind, Option.bind_eq_some] at h
  obtain ⟨v, -, m, -, h⟩ := h
  split at h
  · cases h; exact ⟨rfl, rfl, rfl⟩
  · simp only [Option.bind_eq_some] at h
    obtain ⟨tm, -, h⟩ := h
    split_ifs at h <;> cases h <;> exact ⟨rfl, rfl, rfl⟩

end State

end Lua
