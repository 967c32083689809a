import MServer.Master.Method

namespace LClass

open Lua State

def baseField (classname : String) (mt : Nat) (k : String) : Value :=
  if k = "__index" then .table mt
  else if k = "__tostring" then .cfunction "tostring"
  else if k = "__gc" then .cfunction "gc"
  else if k = "__name" then .str classname
  else .nil

def classTable (classname : String) (mt : Nat) : Table :=
  ⟨((((⟨[(.str "__name", .str classname)], none⟩ : Table).rawset (.str "__gc") (.cfunction "gc")).rawset
      (.str "__tostring") (.cfunction "tostring")).rawset (.str "__index") (.table mt)).entries, some (mt + 1)⟩

def callTable : Table := (⟨[], none⟩ : Table).rawset (.str "__call") (.cfunction "cnew")

theorem rawget_classTable (classname : String) (mt : Nat) (k : String) :
    (classTable classname mt).rawget (.str k) = baseField classname mt k := by
  show Table.rawget ((((⟨[(.str "__name", .str classname)], none⟩ : Table).rawset (.str "__gc")
    (.cfunction "gc")).rawset (.str "__tostring") (.cfunction "tostring")).rawset (.str "__index") (.table mt))
    (.str k) = _
  simp only [Table.rawget_rawset, Value.str.injEq, baseField]
  split_ifs <;> simp_all [Table.rawget, @eq_comm String "__name"]

theorem callTable_rawget : callTable.rawget (.str "__call") = .cfunction "cnew" ∧
    callTable.rawget (.str "__index") = .nil ∧ callTable.rawget (.str "__newindex") = .nil := by
  decide

theorem set_concat_length {α : Type} (T : List α) (a b : α) : (T ++ [a]).set T.length b = T ++ [b] := by
  simp

theorem register_spec (classname : String) (L : State) {reg : Table} (hreg : L.tables[0]? = some reg)
    (hnew : reg.rawget (.str classname) = .nil) {ld : Nat} (hld : reg.rawget (.str "_LOADED") = .table ld)
    (hld0 : ld ≠ 0) {ldt : Table} (hldt : L.tables[ld]? = some ldt) (hldm : ldt.meta = none) :
    register classname L = some { L with stack := [], tables :=
      ((L.tables.set 0 (reg.rawset (.str classname) (.table L.tables.length))).set ld
        (ldt.rawset (.str classname) (L.stack.headD (.table L.tables.length))) ++
        [classTable classname L.tables.length, callTable]) } := by
  have hn : 0 < L.tables.length := (List.getElem?_eq_some_iff.1 hreg).1
  have hldn : ld < L.tables.length := (List.getElem?_eq_some_iff.1 hldt).1
  have hcl : classname ≠ "_LOADED" := by rintro rfl; rw [hnew] at hld; cases hld
  simp only [register, newmetatable, hreg, hnew, Option.bind_eq_bind, Option.some_bind, ne_eq, not_true_eq_false,
    if_false, Option.pure_def, State.pushcfunction, eq_false (by decide : (1 : Int) ≠ 0),
    List.set_append_left _ _ hn]
  set T := L.tables.set 0 (reg.rawset (.str classname) (.table L.tables.length))
  have hT : T.length = L.tables.length := List.length_set ..
  set t0 : Table := ⟨[(.str "__name", .str classname)], none⟩
  set t1 := t0.rawset (.str "__gc") (.cfunction "gc")
  set t2 := t1.rawset (.str "__tostring") (.cfunction "tostring")
  rw [← hT, setfield_below _ t0 (by simp) (noMetaField_of_meta_none rfl _)]
  simp only [Option.some_bind, push_tables, push_withTables, set_concat_length]
  rw [setfield_below _ t1 (by simp) (noMetaField_of_meta_none rfl _)]
  simp only [Option.some_bind, push_tables, push_withTables, set_concat_length, pushvalue_top]
  rw [setfield_below _ t2 (by simp) (noMetaField_of_meta_none rfl _)]
  simp only [Option.some_bind, push_tables, push_withTables, set_concat_length, newtable_eq]
  rw [setfield_below _ ⟨[], none⟩ (List.getElem?_concat_length ..) (noMetaField_of_meta_none rfl _)]
  simp only [Option.some_bind, push_tables, push_withTables, set_concat_length]
  rw [setmetatable_below _ (t2.rawset (.str "__index") (.table T.length))
    (by rw [List.getElem?_append_left (by simp), List.getElem?_concat_length])]
  simp only [Option.some_bind, push_tables, push_withTables]
  rw [getfield_registry _ (reg.rawset (.str classname) (.table L.tables.length))
      (by
        dsimp only [push_tables]
        rw [List.getElem?_set_ne (by omega), List.getElem?_append_left (by simp),
          List.getElem?_append_left (by omega), List.getElem?_set_self hn])
      (by rw [Table.rawget_rawset, if_neg fun h => hcl (Value.str.inj h).symm, hld])]
  simp only [Option.some_bind, istable_top, Bool.not_true, Bool.false_eq_true, if_false, pushvalue_one]
  rw [setfield_below _ ldt
      (by simp [push_tables, List.getElem?_append_left, hT, hldn, T, List.getElem?_set_ne (Ne.symm hld0), hldt])
    (noMetaField_of_meta_none hldm _)]
  simp [State.settop, State.push, List.set_append_left, hT, hldn, classTable, callTable, T]

structure Registered (classname : String) (ts : List Table) (mt : Nat) (F : String → Value) : Prop where
  registry : ∃ reg, ts[0]? = some reg ∧ reg.rawget (.str classname) = .table mt
  mt_pos : 0 < mt
  fields : ∃ t, ts[mt]? = some t ∧ t.meta = some (mt + 1) ∧ ∀ k, t.rawget (.str k) = F k
  call : ∃ ct, ts[mt + 1]? = some ct ∧ ct.rawget (.str "__call") = .cfunction "cnew" ∧
    ct.rawget (.str "__index") = .nil ∧ ct.rawget (.str "__newindex") = .nil

theorem registered_register (classname : String) (L : State) {reg : Table} (hreg : L.tables[0]? = some reg)
    {ld : Nat} (hld0 : ld ≠ 0) (v : Value) (ldt : Table) :
    Registered classname ((L.tables.set 0 (reg.rawset (.str classname) (.table L.tables.length))).set ld
      (ldt.rawset (.str classname) v) ++ [classTable classname L.tables.length, callTable])
      L.tables.length (baseField classname L.tables.length) := by
  have hn : 0 < L.tables.length := (List.getElem?_eq_some_iff.1 hreg).1
  refine ⟨⟨reg.rawset (.str classname) (.table L.tables.length), ?_, by simp [Table.rawget_rawset]⟩, hn,
    ⟨_, by rw [List.getElem?_append_right (by simp)]; simp, rfl, rawget_classTable classname _⟩,
    ⟨_, by rw [List.getElem?_append_right (by simp)]; simp, callTable_rawget⟩⟩
  rw [List.getElem?_append_left (by simpa using hn), List.getElem?_set_ne hld0, List.getElem?_set_self hn]

section Registered

variable {classname : String} {ts : List Table} {mt : Nat} {F : String → Value}

theorem Registered.append (hr : Registered classname ts mt F) (l : List Table) :
    Registered classname (ts ++ l) mt F := by
  obtain ⟨⟨reg, h0, hc⟩, hpos, ⟨t, ht, hm, hf⟩, ⟨ct, hct, h1, h2, h3⟩⟩ := hr
  have get (i : Nat) {x : Table} (h : ts[i]? = some x) : (ts ++ l)[i]? = some x := by
    rw [List.getElem?_append_left (List.getElem?_eq_some_iff.1 h).1, h]
  exact ⟨⟨reg, get 0 h0, hc⟩, hpos, ⟨t, get mt ht, hm, hf⟩, ⟨ct, get _ hct, h1, h2, h3⟩⟩

theorem Registered.set_field (hr : Registered classname ts mt F) {t : Table} (ht : ts[mt]? = some t)
    (name : String) (v : Value) :
    Registered classname (ts.set mt (t.rawset (.str name) v)) mt (fun k => if k = name then v else F k) := by
  obtain ⟨⟨reg, h0, hc⟩, hpos, ⟨t', ht', hm, hf⟩, ⟨ct, hct, h1, h2, h3⟩⟩ := hr
  obtain rfl : t' = t := Option.some_injective _ (ht'.symm.trans ht)
  refine ⟨⟨reg, by rw [List.getElem?_set_ne (by omega), h0], hc⟩, hpos,
    ⟨_, List.getElem?_set_self (List.getElem?_eq_some_iff.1 ht).1, hm, fun k => ?_⟩,
    ⟨ct, by rw [List.getElem?_set_ne (by omega), hct], h1, h2, h3⟩⟩
  simp [Table.rawget_rawset, hf]

theorem Registered.noMetaField (hr : Registered classname ts mt F) {t : Table} (ht : ts[mt]? = some t) :
    NoMetaField ts t "__index" ∧ NoMetaField ts t "__newindex" := by
  obtain ⟨-, -, ⟨t', ht', hm, -⟩, ⟨ct, hct, -, hi, hn⟩⟩ := hr
  obtain rfl : t' = t := Option.some_injective _ (ht'.symm.trans ht)
  exact ⟨fun m h => ⟨ct, by rwa [← Option.some_injective _ (hm.symm.trans h)], hi⟩,
    fun m h => ⟨ct, by rwa [← Option.some_injective _ (hm.symm.trans h)], hn⟩⟩

theorem Registered.defineField {L : State} (hr : Registered classname L.tables mt F) (name : String)
    (v : Value) : ∃ t, L.tables[mt]? = some t ∧
      defineField classname name v L = some { L with tables := L.tables.set mt (t.rawset (.str name) v) } := by
  obtain ⟨⟨reg, h0, hc⟩, -, ⟨t, ht, -, -⟩, -⟩ := id hr
  obtain ⟨hi, hn⟩ := hr.noMetaField ht
  refine ⟨t, ht, ?_⟩
  simp only [LClass.defineField, getmetatable_of_rawget L h0 hc, Option.bind_eq_bind, Option.some_bind,
    getfield_top, index_of_noMetaField (L.push (.table mt)) ht hi, isnil_top, pop_push,
    setfield_below L t ht hn]

theorem Registered.index_udata {L : State} (hr : Registered classname L.tables mt F)
    (hidx : F "__index" = .table mt) {u : Nat} {d : Udata} (hd : L.udata[u]? = some d) (hm : d.meta = some mt)
    (name : String) : L.index MAXTAGLOOP (.udata u) (.str name) = some (F name) := by
  obtain ⟨-, -, ⟨t, ht, -, hf⟩, -⟩ := id hr
  have hix := index_succ_of_noMetaField L ht (hr.noMetaField ht).1 (.str name) 1998
  rw [hf] at hix
  rw [show MAXTAGLOOP = 1998 + 1 + 1 from rfl, index]
  simp only [metaOf, hd, hm, ht, hf, hidx, hix, Option.map_some', Option.bind_eq_bind, Option.some_bind, ne_eq,
    not_true_eq_false, if_false]
  exact fun _ h => nomatch h

end Registered

inductive Def where
  | method (name thunk : String)
  | const (name : String) (val : Int)
deriving DecidableEq, Repr

namespace Def

def name : Def → String
  | .method name _ => name
  | .const name _ => name

def value : Def → Value
  | .method _ thunk => .cfunction thunk
  | .const _ val => .int val

def run (classname : String) : Def → State → Option State
  | .method name thunk => «def» classname name thunk
  | .const name val => set classname name val

theorem run_eq (classname : String) (d : Def) : d.run classname = defineField classname d.name d.value := by
  cases d <;> rfl

end Def

def defineAll (classname : String) (defs : List Def) (L : State) : Option State :=
  defs.foldlM (fun L d => d.run classname L) L

def fieldsAfter (F : String → Value) (defs : List Def) : String → Value :=
  defs.foldl (fun F d k => if k = d.name then d.value else F k) F

theorem fieldsAfter_of_not_mem {k : String} : ∀ {defs : List Def} {F : String → Value},
    (∀ d ∈ defs, d.name ≠ k) → fieldsAfter F defs k = F k
  | [], _, _ => rfl
  | d :: ds, F, h => by
    rw [fieldsAfter, List.foldl_cons, ← fieldsAfter,
      fieldsAfter_of_not_mem fun d' hd' => h d' (List.mem_cons_of_mem _ hd'),
      if_neg fun e => h d (List.mem_cons_self _ _) e.symm]

theorem Registered.defineAll {classname : String} {mt : Nat} :
    ∀ (defs : List Def) {L : State} {F : String → Value}, Registered classname L.tables mt F →
      ∃ ts, defineAll classname defs L = some { L with tables := ts } ∧
        (∀ i, i ≠ mt → ts[i]? = L.tables[i]?) ∧
        Registered classname ts mt (fieldsAfter F defs)
  | [], L, _, hr => ⟨L.tables, rfl, fun _ _ => rfl, hr⟩
  | d :: ds, L, _, hr => by
    obtain ⟨t, ht, e⟩ := hr.defineField d.name d.value
    obtain ⟨ts, e', hframe, hr'⟩ := Registered.defineAll ds (L := { L with tables := L.tables.set mt _ })
      (hr.set_field ht d.name d.value)
    refine ⟨ts, ?_, fun i hi => ?_, hr'⟩
    · rw [LClass.defineAll, List.foldlM_cons, Def.run_eq, e, Option.bind_eq_bind, Option.some_bind]
      exact e'
    · rw [hframe i hi, List.getElem?_set_ne (Ne.symm hi)]

theorem pushed_object_resolves_methods (classname : String) (L : State) {reg : Table}
    (hreg : L.tables[0]? = some reg) (hnew : reg.rawget (.str classname) = .nil) {ld : Nat}
    (hld : reg.rawget (.str "_LOADED") = .table ld) (hld0 : ld ≠ 0) {ldt : Table} (hldt : L.tables[ld]? = some ldt)
    (hldm : ldt.meta = none) (defs : List Def) (hnames : ∀ d ∈ defs, d.name ≠ "__index" ∧ d.name ≠ "_notgc")
    (obj : Nat) (gc : Bool) :
    ∃ L', (register classname L).bind (defineAll classname defs) = some L' ∧ L'.stack = [] ∧
      (∃ lt, L'.tables[ld]? = some lt ∧ lt.rawget (.str classname) = L.stack.headD (.table L.tables.length)) ∧
      (∃ c ct, L'.metaOf (.table L.tables.length) = some (some c) ∧ L'.tables[c]? = some ct ∧
        ct.rawget (.str "__call") = .cfunction "cnew") ∧
      ∃ L'', push classname L' obj gc = some (1, L'') ∧ L''.stack = [.udata L'.udata.length] ∧
        ∀ name, name ≠ "_notgc" → L''.index MAXTAGLOOP (.udata L'.udata.length) (.str name) =
          some (fieldsAfter (baseField classname L.tables.length) defs name) := by
  have hldn : ld < L.tables.length := (List.getElem?_eq_some_iff.1 hldt).1
  have hr1 := registered_register classname L hreg hld0 (L.stack.headD (.table L.tables.length)) ldt
  obtain ⟨ts, e, hframe, hr⟩ := hr1.defineAll defs (L := { L with stack := [], tables := _ })
  set F := fieldsAfter (baseField classname L.tables.length) defs
  have hidx : F "__index" = .table L.tables.length := fieldsAfter_of_not_mem fun d hd => (hnames d hd).1
  have hnotgc : F "_notgc" = .nil := fieldsAfter_of_not_mem fun d hd => (hnames d hd).2
  obtain ⟨⟨reg', h0, hc⟩, -, ⟨t, ht, htm, hf⟩, ⟨ct, hct, hcall, -⟩⟩ := id hr
  refine ⟨{ L with stack := [], tables := ts }, ?_, rfl,
    ⟨ldt.rawset (.str classname) (L.stack.headD (.table L.tables.length)), ?_,
      by rw [Table.rawget_rawset, if_pos rfl]⟩,
    ⟨L.tables.length + 1, ct, by simp [metaOf, ht, htm], hct, hcall⟩, ?_⟩
  · rw [register_spec classname L hreg hnew hld hld0 hldt hldm, Option.some_bind]
    exact e
  · rw [hframe ld (Nat.ne_of_lt hldn), List.getElem?_append_left (by simpa using hldn),
      List.getElem?_set_self (by simpa using hldn)]
  · have hd : (L.udata ++ [(⟨some obj, some L.tables.length⟩ : Udata)])[L.udata.length]? =
        some ⟨some obj, some L.tables.length⟩ := List.getElem?_concat_length ..
    cases gc
    · obtain ⟨hi, hn⟩ := hr.noMetaField ht
      have hp := push_notgc_absent classname { L with stack := [], tables := ts } obj h0 hc ht (by rw [hf, hnotgc])
        hi hn
      refine ⟨_, hp, rfl, fun name hname => ?_⟩
      have hr' := (hr.set_field ht "_notgc" (.table ts.length)).append
        [(⟨[(.str "__mode", .str "k"), (.udata L.udata.length, .bool false)], some ts.length⟩ : Table)]
      rw [Registered.index_udata hr' (by rw [if_neg (by decide)]; exact hidx) hd rfl name, if_neg hname]
    · refine ⟨_, push_gc_spec classname { L with stack := [], tables := ts } obj h0 hc, rfl, fun name _ => ?_⟩
      exact Registered.index_udata hr hidx hd rfl name

theorem pushed_object_resolves_methods_sample :
    (⟨[], [⟨[(.str "_LOADED", .table 1)], none⟩, ⟨[], none⟩], [], 100, []⟩ : State).tables[0]? =
        some ⟨[(.str "_LOADED", .table 1)], none⟩ ∧
      (⟨[(.str "_LOADED", .table 1)], none⟩ : Table).rawget (.str "T") = .nil ∧
      (⟨[(.str "_LOADED", .table 1)], none⟩ : Table).rawget (.str "_LOADED") = .table 1 ∧ 1 ≠ 0 ∧
      (⟨[], [⟨[(.str "_LOADED", .table 1)], none⟩, ⟨[], none⟩], [], 100, []⟩ : State).tables[1]? =
        some ⟨[], none⟩ ∧ (⟨[], none⟩ : Table).meta = none ∧
      (∀ d ∈ [Def.method "get" "fun_thunk_get", Def.const "MAX" 8], d.name ≠ "__index" ∧ d.name ≠ "_notgc") ∧
      ∃ L', (register "T" ⟨[], [⟨[(.str "_LOADED", .table 1)], none⟩, ⟨[], none⟩], [], 100, []⟩).bind
          (defineAll "T" [Def.method "get" "fun_thunk_get", Def.const "MAX" 8]) = some L' ∧ L'.stack = [] ∧
        (∃ lt, L'.tables[1]? = some lt ∧ lt.rawget (.str "T") = ([] : List Value).headD (.table 2)) ∧
        (∃ c ct, L'.metaOf (.table 2) = some (some c) ∧ L'.tables[c]? = some ct ∧
          ct.rawget (.str "__call") = .cfunction "cnew") ∧
        ∃ L'', push "T" L' 7 false = some (1, L'') ∧ L''.stack = [.udata L'.udata.length] ∧
          ∀ name, name ≠ "_notgc" → L''.index MAXTAGLOOP (.udata L'.udata.length) (.str name) =
            some (fieldsAfter (baseField "T" 2) [Def.method "get" "fun_thunk_get", Def.const "MAX" 8] name) :=
  ⟨rfl, by decide, by decide, by decide, rfl, rfl, by decide,
    pushed_object_resolves_methods "T" ⟨[], [⟨[(.str "_LOADED", .table 1)], none⟩, ⟨[], none⟩], [], 100, []⟩
      rfl
      (by decide) (by decide) (by decide) rfl rfl [Def.method "get" "fun_thunk_get", Def.const "MAX" 8]
      (by decide) 7 false⟩

end LClass
