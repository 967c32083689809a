import MServer.Master.Lua

namespace LClass

open Lua State

def register (classname : String) (L : State) : Option State := do
  let (created, L) ← L.newmetatable classname
  if created = 0 then none
  let L ← (L.pushcfunction "gc").setfield (-2) "__gc"
  let L ← (L.pushcfunction "tostring").setfield (-2) "__tostring"
  let L ← L.pushvalue (-1)
  let L ← L.setfield (-2) "__index"
  let L ← (L.newtable.pushcfunction "cnew").setfield (-2) "__call"
  let (_, L) ← L.setmetatable (-2)
  let L ← L.getfield LUA_REGISTRYINDEX "_LOADED"
  if !(← L.istable (-1)) then none
  let L ← L.pushvalue 1
  let L ← L.setfield (-2) classname
  pure (L.settop 0)

def weaktable (L : State) (mode : String) : Option State := do
  let L ← L.newtable.pushvalue (-1)
  let (_, L) ← L.setmetatable (-2)
  (L.pushstring "__mode" |>.pushstring mode).settable (-3)

def subtable (L : State) (tindex : Int) (name mode : String) : Option State := do
  let L ← (L.pushstring name).gettable tindex
  if ← L.isnil (-1) then
    let L ← L.pop 1
    let L ← weaktable L mode
    let L ← (L.pushstring name).pushvalue (-2)
    L.settable tindex
  else pure L

def push (classname : String) (L : State) (obj : Nat) (gc : Bool) : Option (Int × State) := do
  let L ← (L.newuserdata obj).getmetatable classname
  let L ← if !gc then do
      let L ← subtable L 2 "_notgc" "k"
      let L ← L.pushvalue 1
      let L ← (L.pushboolean false).settable (-3)
      L.pop 1
    else pure L
  L.setmetatable (-2)

def cnew (L : State) : Option (Int × State) := do
  let L := { L with nextObj := L.nextObj + 1 }.newuserdata L.nextObj
  let L ← L.insert 1
  L.setmetatable (-2)

def gc (classname : String) (L : State) : Option (Int × State) := do
  let (notgc, L) ← L.getmetafield 1 "_notgc"
  let (skip, L) ← if notgc ≠ 0 then do
      let L ← (← L.pushvalue 1).gettable (-2)
      pure (!(← L.toboolean (-1)), L)
    else pure (false, L)
  if skip then pure (0, L)
  else
    let u ← L.checkudata 1 classname
    let d ← L.udata[u]?
    let L := match d.ptr with
      | some obj => { L with deleted := L.deleted ++ [obj] }
      | none => L
    pure (0, { L with udata := L.udata.set u { d with ptr := none } })

inductive Call where
  | push (frame : List Value) (obj : Nat) (gc : Bool)
  | cnew
  | finalize (u : Nat)
deriving DecidableEq, Repr

def call (classname : String) (L : State) : Call → Option State
  | .push frame obj gc => (push classname { L with stack := frame } obj gc).map ({ ·.2 with stack := [] })
  | .cnew => do
    let mt ← (L.tables[0]?).map (·.rawget (.str classname))
    (cnew { L with stack := [mt] }).map ({ ·.2 with stack := [] })
  | .finalize u => (gc classname { L with stack := [.udata u] }).map ({ ·.2 with stack := [] })

def runCalls (classname : String) (L : State) (calls : List Call) : Option State :=
  calls.foldlM (call classname) L

theorem newuserdata_getmetatable (classname : String) (L : State) (obj : Nat) {reg : Table}
    (hreg : L.tables[0]? = some reg) {mt : Nat} (hclass : reg.rawget (.str classname) = .table mt) :
    ({ L with stack := [] }.newuserdata obj).getmetatable classname =
      some { L with stack := [.udata L.udata.length, .table mt], udata := L.udata ++ [⟨some obj, none⟩] } := by
  have h := getmetatable_of_rawget ({ L with stack := [] }.newuserdata obj) hreg hclass
  rw [h]
  simp [Lua.State.newuserdata, Lua.State.push]

theorem weaktable_spec (L : State) (a b : Value) (mode : String) :
    weaktable { L with stack := [a, b] } mode = some { L with
      stack := [a, b, .table L.tables.length]
      tables := L.tables ++ [(⟨[(.str "__mode", .str mode)], some L.tables.length⟩ : Table)] } := by
  have hw : (L.tables ++ [(⟨[], some L.tables.length⟩ : Table)])[L.tables.length]? =
      some ⟨[], some L.tables.length⟩ := by simp
  simp only [weaktable, pushvalue, newtable, List.singleton_append, get_neg_one, List.getLast?_cons_cons,
    List.getLast?_singleton, Option.map_some', State.push, setmetatable, get_neg_two, pop_one,
    Option.pure_def, Option.bind_eq_bind, Option.some_bind, settable, pushstring, List.append_assoc,
    get_neg_three, ne_eq, reduceCtorEq, not_false_eq_true, List.dropLast_append_of_ne_nil,
    List.dropLast_cons₂, List.dropLast_single, List.getLast?_append, Option.or_some, pop_two,
    List.append_eq_nil, and_false, ↓reduceIte, List.length_append, List.length_singleton, Nat.lt_add_one,
    List.getElem?_eq_getElem, List.getElem_concat_length, le_refl, List.set_append_right, Nat.sub_self,
    List.getLast?_nil, Option.none_or]
  rw [assign_table _ hw (by simp) (NoMetaField.self hw rfl rfl)]
  simp [Table.rawset]

theorem subtable_absent (L : State) (a : Value) {mt : Nat} {tmt : Table} (htm : L.tables[mt]? = some tmt)
    (hidx : NoMetaField L.tables tmt "__index") (hnew : NoMetaField L.tables tmt "__newindex")
    {name : String} (hnone : tmt.rawget (.str name) = .nil) (mode : String) :
    subtable { L with stack := [a, .table mt] } 2 name mode = some { L with
      stack := [a, .table mt, .table L.tables.length]
      tables := L.tables.set mt (tmt.rawset (.str name) (.table L.tables.length)) ++
        [(⟨[(.str "__mode", .str mode)], some L.tables.length⟩ : Table)] } := by
  have hlt : mt < L.tables.length := (List.getElem?_eq_some_iff.1 htm).1
  have hix := index_of_noMetaField { L with stack := [a, .table mt, .str name] } htm hidx (.str name)
  have has := assign_table
    { L with
      stack := [a, .table mt, .table L.tables.length]
      tables := L.tables ++ [(⟨[(.str "__mode", .str mode)], some L.tables.length⟩ : Table)] }
    (i := mt) (by simp [List.getElem?_append_left hlt, htm]) (k := .str name) (by simp) (hnew.append _)
    (.table L.tables.length)
  rw [hnone] at hix
  simp only [List.getElem?_cons_succ, List.getElem?_cons_zero, subtable, gettable, pushstring, State.push,
    List.cons_append, get_two, get_neg_one, List.getLast?_cons_cons, List.getLast?_singleton, pop_one,
    reduceCtorEq, ↓reduceIte, List.dropLast_cons₂, List.dropLast_single, Option.pure_def, Option.bind_eq_bind,
    Option.some_bind, hix, isnil, pushvalue, get_neg_two, settable, pop_two, Option.map_some', decide_True,
    weaktable_spec, has, List.set_append_left _ _ hlt, List.nil_append]

theorem subtable_present (L : State) (a : Value) {mt : Nat} {tmt : Table} (htm : L.tables[mt]? = some tmt)
    {name : String} (hv : tmt.rawget (.str name) ≠ .nil) (mode : String) :
    subtable { L with stack := [a, .table mt] } 2 name mode =
      some { L with stack := [a, .table mt, tmt.rawget (.str name)] } := by
  have hix := index_of_rawget { L with stack := [a, .table mt, .str name] } htm hv
  simp only [List.getElem?_cons_succ, List.getElem?_cons_zero, subtable, gettable, pushstring, State.push,
    List.cons_append, get_two, get_neg_one, List.getLast?_cons_cons, List.getLast?_singleton, pop_one,
    reduceCtorEq, ↓reduceIte, List.dropLast_cons₂, List.dropLast_single, Option.pure_def, Option.bind_eq_bind,
    Option.some_bind, hix, isnil, Option.map_some', hv, decide_False, List.nil_append]

section Push

variable (classname : String) (L : State) (obj : Nat) {reg : Table} (hreg : L.tables[0]? = some reg)
  {mt : Nat} (hclass : reg.rawget (.str classname) = .table mt)
include hreg hclass

theorem push_gc_spec :
    push classname { L with stack := [] } obj true =
      some (1, { L with stack := [.udata L.udata.length], udata := L.udata ++ [⟨some obj, some mt⟩] }) := by
  rw [push, newuserdata_getmetatable classname L obj hreg hclass]
  simp only [Bool.not_true, ↓reduceIte, Option.pure_def, setmetatable, get_neg_two, get_neg_one, pop_one,
    Option.bind_eq_bind, Option.some_bind, List.dropLast_cons₂, List.dropLast_single, List.getLast?_singleton,
    List.getLast?_cons_cons, reduceCtorEq, List.length_append, List.length_singleton, Nat.lt_add_one,
    List.getElem?_eq_getElem, List.getElem_concat_length, le_refl, List.set_append_right, Nat.sub_self,
    List.set_cons_zero]

theorem push_notgc_present {tmt : Table} (htm : L.tables[mt]? = some tmt) {w : Nat}
    (hw : tmt.rawget (.str "_notgc") = .table w) {tw : Table} (htw : L.tables[w]? = some tw)
    (hnew : NoMetaField L.tables tw "__newindex") :
    push classname { L with stack := [] } obj false =
      some (1, { L with
        stack := [.udata L.udata.length]
        udata := L.udata ++ [(⟨some obj, some mt⟩ : Udata)]
        tables := L.tables.set w (tw.rawset (.udata L.udata.length) (.bool false)) }) := by
  have hsub := subtable_present { L with udata := L.udata ++ [⟨some obj, none⟩] } (.udata L.udata.length)
    htm (show tmt.rawget (.str "_notgc") ≠ .nil by simp [hw]) "k"
  have has := assign_table
    { L with
      stack := [.udata L.udata.length, .table mt, .table w]
      udata := L.udata ++ [⟨some obj, none⟩] }
    htw (k := .udata L.udata.length) (by simp) hnew (.bool false)
  rw [push, newuserdata_getmetatable classname L obj hreg hclass]
  dsimp only at hsub
  simp only [List.length_nil, Bool.not_false, ↓reduceIte, pushvalue, get_one, settable, pushboolean,
    State.push, get_neg_three, get_neg_two, get_neg_one, List.getLast?_singleton, pop_two,
    Option.bind_eq_bind, Option.some_bind, pop_one, setmetatable, Option.pure_def, hsub, hw, List.length_cons,
    Nat.zero_lt_succ, List.getElem?_eq_getElem, List.getElem_cons_zero, Option.map_some', List.cons_append,
    List.dropLast_cons₂, List.dropLast_single, List.getLast?_cons_cons, reduceCtorEq, has, List.length_append,
    Nat.lt_add_one, List.getElem_concat_length, le_refl, List.set_append_right, Nat.sub_self,
    List.set_cons_zero, List.nil_append]

theorem push_notgc_absent {tmt : Table} (htm : L.tables[mt]? = some tmt)
    (hnone : tmt.rawget (.str "_notgc") = .nil) (hidx : NoMetaField L.tables tmt "__index")
    (hnew : NoMetaField L.tables tmt "__newindex") :
    push classname { L with stack := [] } obj false =
      some (1, { L with
        stack := [.udata L.udata.length]
        udata := L.udata ++ [(⟨some obj, some mt⟩ : Udata)]
        tables := L.tables.set mt (tmt.rawset (.str "_notgc") (.table L.tables.length)) ++
          [(⟨[(.str "__mode", .str "k"), (.udata L.udata.length, .bool false)], some L.tables.length⟩ :
            Table)] }) := by
  have hsub := subtable_absent { L with udata := L.udata ++ [⟨some obj, none⟩] } (.udata L.udata.length)
    htm hidx hnew hnone "k"
  have hw : (L.tables.set mt (tmt.rawset (.str "_notgc") (.table L.tables.length)) ++
      [(⟨[(.str "__mode", .str "k")], some L.tables.length⟩ : Table)])[L.tables.length]? =
      some ⟨[(.str "__mode", .str "k")], some L.tables.length⟩ := by
    rw [List.getElem?_append_right (by simp)]; simp
  have has := assign_table
    { L with
      stack := [.udata L.udata.length, .table mt, .table L.tables.length]
      udata := L.udata ++ [⟨some obj, none⟩]
      tables := L.tables.set mt (tmt.rawset (.str "_notgc") (.table L.tables.length)) ++
        [(⟨[(.str "__mode", .str "k")], some L.tables.length⟩ : Table)] }
    hw (k := .udata L.udata.length) (by simp) (NoMetaField.self hw rfl rfl) (.bool false)
  rw [push, newuserdata_getmetatable classname L obj hreg hclass]
  dsimp only at hsub
  simp only [↓reduceIte, pushvalue, get_one, settable, pushboolean, State.push, get_neg_three, get_neg_two,
    get_neg_one, List.getLast?_singleton, pop_two, Option.bind_eq_bind, Option.some_bind, setmetatable, hsub,
    List.length_cons, Nat.zero_lt_succ, List.getElem?_eq_getElem, List.getElem_cons_zero, Option.map_some',
    List.cons_append, List.dropLast_cons₂, List.dropLast_single, List.getLast?_cons_cons, reduceCtorEq, has,
    List.nil_append]
  simp only [Bool.not_false, ↓reduceIte, Table.rawset, ne_eq, decide_not, reduceCtorEq, decide_False,
    List.filter_cons_of_pos, List.filter_nil, List.singleton_append, List.length_set, le_refl,
    List.set_append_right, Nat.sub_self, List.set_cons_zero, pop_one, List.dropLast_cons₂, List.dropLast_single,
    Option.pure_def, Option.none_bind, Option.some_bind, List.getLast?_singleton, List.getLast?_cons_cons,
    List.length_append, List.length_singleton, Nat.lt_add_one, List.getElem?_eq_getElem,
    List.getElem_concat_length]

end Push

section Finalize

variable (classname : String) (L : State) {u : Nat} {d : Udata} (hd : L.udata[u]? = some d)
  {mt : Nat} (hmeta : d.meta = some mt) {tmt : Table} (htm : L.tables[mt]? = some tmt)
  {reg : Table} (hreg : L.tables[0]? = some reg) (hclass : reg.rawget (.str classname) = .table mt)
include hd hmeta htm hreg hclass

theorem gc_notgc_absent (hnone : tmt.rawget (.str "_notgc") = .nil) :
    gc classname { L with stack := [.udata u] } = some (0, { L with
      stack := [.udata u]
      udata := L.udata.set u { d with ptr := none }
      deleted := L.deleted ++ d.ptr.toList }) := by
  simp only [gc, getmetafield, get_one, List.length_singleton, Nat.lt_add_one, List.getElem?_eq_getElem,
    List.getElem_cons_zero, metaOf, Option.pure_def, Option.bind_eq_bind, Option.some_bind, hd,
    Option.map_some', hmeta, htm, hnone, ↓reduceIte, checkudata, hreg, hclass]
  rcases d.ptr with _ | obj <;> simp

theorem gc_notgc_present {w : Nat} (hw : tmt.rawget (.str "_notgc") = .table w) {tw : Table}
    (htw : L.tables[w]? = some tw) (hidx : NoMetaField L.tables tw "__index") :
    gc classname { L with stack := [.udata u] } = some (0,
      let L' := { L with stack := [.udata u, .table w, tw.rawget (.udata u)] }
      if (tw.rawget (.udata u)).truthy then
        { L' with udata := L.udata.set u { d with ptr := none }, deleted := L.deleted ++ d.ptr.toList }
      else L') := by
  have hix := index_of_noMetaField { L with stack := [.udata u, .table w, .udata u] } htw hidx (.udata u)
  cases ht : (tw.rawget (.udata u)).truthy <;>
    simp only [gc, getmetafield, get_one, List.getElem?_eq_getElem, List.getElem_cons_zero, metaOf,
      Option.pure_def, Value.type, State.push, Option.bind_eq_bind, Option.some_bind, hd, Option.map_some',
      hmeta, htm, hw, reduceCtorEq, ↓reduceIte, pushvalue, gettable, get_neg_two, get_neg_one, pop_one,
      toboolean, checkudata, Bool.not_eq_eq_eq_not, Bool.not_true, ite_not, List.length_cons,
      Nat.zero_lt_succ, List.cons_append, List.dropLast_cons₂, List.dropLast_single, List.getLast?_cons_cons,
      List.getLast?_singleton, hix, ht, hreg, hclass, List.nil_append]
  rcases d.ptr with _ | obj <;> simp

end Finalize

theorem gc_skips_after_notgc_push :
    ((register "T" ⟨[], [⟨[(.str "_LOADED", .table 1)], none⟩, ⟨[], none⟩], [], 100, []⟩).bind
        fun L => runCalls "T" L [.cnew, .finalize 0]).map (·.deleted) = some [100] ∧
      ((register "T" ⟨[], [⟨[(.str "_LOADED", .table 1)], none⟩, ⟨[], none⟩], [], 100, []⟩).bind
        fun L => runCalls "T" L [.push [] 7 false, .cnew, .finalize 1]).map (·.deleted) = some [] := by
  decide

theorem push_then_finalize (classname : String) (L : State) (obj : Nat) (collect : Bool) {reg : Table}
    (hreg : L.tables[0]? = some reg) {mt : Nat} (hclass : reg.rawget (.str classname) = .table mt)
    {tmt : Table} (htm : L.tables[mt]? = some tmt)
    (hidx : NoMetaField L.tables tmt "__index") (hnew : NoMetaField L.tables tmt "__newindex")
    (hnotgc : tmt.rawget (.str "_notgc") = .nil ∨ ∃ w tw, tmt.rawget (.str "_notgc") = .table w ∧
      L.tables[w]? = some tw ∧ NoMetaField L.tables tw "__index" ∧ NoMetaField L.tables tw "__newindex" ∧
      tw.rawget (.udata L.udata.length) = .nil) :
    ∃ L1 L2, push classname { L with stack := [] } obj collect = some (1, L1) ∧
      gc classname { L1 with stack := [.udata L.udata.length] } = some (0, L2) ∧
      L2.deleted = L.deleted ++ if collect ∧ tmt.rawget (.str "_notgc") = .nil then [obj] else [] := by
  have hd : (L.udata ++ [(⟨some obj, some mt⟩ : Udata)])[L.udata.length]? = some ⟨some obj, some mt⟩ := by
    simp
  cases collect with
  | true =>
    let L1 : State := { L with stack := [.udata L.udata.length], udata := L.udata ++ [⟨some obj, some mt⟩] }
    rcases hnotgc with hnone | ⟨w, tw, hw, htw, hidxw, -, hfresh⟩
    · exact ⟨_, _, push_gc_spec classname L obj hreg hclass,
        gc_notgc_absent classname L1 hd rfl htm hreg hclass hnone, by simp [hnone]⟩
    · exact ⟨_, _, push_gc_spec classname L obj hreg hclass,
        gc_notgc_present classname L1 hd rfl htm hreg hclass hw htw hidxw, by simp [hfresh, hw, Value.truthy]⟩
  | false =>
    rcases hnotgc with hnone | ⟨w, tw, hw, htw, hidxw, hneww, -⟩
    · have hlt : mt < L.tables.length := (List.getElem?_eq_some_iff.1 htm).1
      have h0 : 0 < L.tables.length := (List.getElem?_eq_some_iff.1 hreg).1
      let W : Table := ⟨[(.str "__mode", .str "k"), (.udata L.udata.length, .bool false)], some L.tables.length⟩
      let T1 := L.tables.set mt (tmt.rawset (.str "_notgc") (.table L.tables.length)) ++ [W]
      obtain ⟨tmt1, htm1, -, hmt1⟩ := getElem?_set_rawset htm htm (.str "_notgc") (.table L.tables.length)
      obtain ⟨reg1, hreg1, -, hreg1'⟩ := getElem?_set_rawset htm hreg (.str "_notgc") (.table L.tables.length)
      have hclass1 : reg1.rawget (.str classname) = .table mt := by
        rw [hreg1', if_neg, hclass]
        rintro ⟨rfl, hc⟩
        obtain rfl : reg = tmt := Option.some_injective _ (hreg.symm.trans htm)
        rw [hc, hnone] at hclass
        exact Value.noConfusion hclass
      have hW : T1[L.tables.length]? = some W := by
        rw [List.getElem?_append_right (by simp)]; simp
      let L1 : State := { L with
        stack := [.udata L.udata.length]
        udata := L.udata ++ [⟨some obj, some mt⟩]
        tables := T1 }
      refine ⟨_, _, push_notgc_absent classname L obj hreg hclass htm hnone hidx hnew,
        gc_notgc_present classname L1 hd rfl (by rw [List.getElem?_append_left (by simp [hlt])]; exact htm1)
          (by rw [List.getElem?_append_left (by simp [h0])]; exact hreg1) hclass1 (by simp [hmt1]) hW
          (NoMetaField.self hW rfl (by simp [W, Table.rawget])),
        by simp [W, Table.rawget, Value.truthy, hnone]⟩
    · obtain ⟨tmt1, htm1, -, hmt1⟩ := getElem?_set_rawset htw htm (.udata L.udata.length) (.bool false)
      obtain ⟨reg1, hreg1, -, hreg1'⟩ := getElem?_set_rawset htw hreg (.udata L.udata.length) (.bool false)
      have htw1 : (L.tables.set w (tw.rawset (.udata L.udata.length) (.bool false)))[w]? =
          some (tw.rawset (.udata L.udata.length) (.bool false)) := by
        simp [(List.getElem?_eq_some_iff.1 htw).1]
      refine ⟨_, _, push_notgc_present classname L obj hreg hclass htm hw htw hneww,
        gc_notgc_present classname _ hd rfl htm1 hreg1 (by simp [hreg1', hclass]) (by simp [hmt1, hw]) htw1
          (hidxw.set_rawset htw (by simp) _), by simp [Table.rawget_rawset, Value.truthy]⟩

theorem push_then_finalize_sample :
    ([(⟨[(.str "T", .table 1)], none⟩ : Table), ⟨[], none⟩][0]? = some ⟨[(.str "T", .table 1)], none⟩ ∧
      (⟨[(.str "T", .table 1)], none⟩ : Table).rawget (.str "T") = .table 1 ∧
      [(⟨[(.str "T", .table 1)], none⟩ : Table), ⟨[], none⟩][1]? = some ⟨[], none⟩ ∧
      NoMetaField [⟨[(.str "T", .table 1)], none⟩, ⟨[], none⟩] ⟨[], none⟩ "__index" ∧
      NoMetaField [⟨[(.str "T", .table 1)], none⟩, ⟨[], none⟩] ⟨[], none⟩ "__newindex" ∧
      (⟨[], none⟩ : Table).rawget (.str "_notgc") = .nil) ∧
    ∃ L1 L2, push "T" ⟨[], [⟨[(.str "T", .table 1)], none⟩, ⟨[], none⟩], [], 0, []⟩ 42 false = some (1, L1) ∧
      gc "T" { L1 with stack := [.udata 0] } = some (0, L2) ∧
      L2.deleted = [] ++ if false ∧ (⟨[], none⟩ : Table).rawget (.str "_notgc") = .nil then [42] else [] := by
  have hno (f : String) : NoMetaField [⟨[(.str "T", .table 1)], none⟩, ⟨[], none⟩] ⟨[], none⟩ f :=
    fun _ h => Option.noConfusion h
  exact ⟨⟨rfl, rfl, rfl, hno _, hno _, rfl⟩,
    push_then_finalize "T" ⟨[], [⟨[(.str "T", .table 1)], none⟩, ⟨[], none⟩], [], 0, []⟩ 42 false rfl rfl rfl
      (hno _) (hno _) (.inl rfl)⟩

theorem push_indexes_caller_slots :
    (∃ L', ((register "T" ⟨[], [⟨[(.str "_LOADED", .table 1)], none⟩, ⟨[], none⟩, ⟨[], none⟩], [], 100,
          []⟩).bind fun L => push "T" { L with stack := [.int 7, .table 2] } 42 false) = some (1, L') ∧
        L'.stack = [.int 7, .table 2, .udata 0] ∧ L'.udata = [⟨some 42, some 3⟩] ∧
        (L'.tables[0]?).map (·.rawget (.str "T")) = some (.table 3) ∧
        (L'.tables[3]?).map (·.rawget (.str "_notgc")) = some .nil ∧
        (L'.tables[2]?).map (·.rawget (.str "_notgc")) = some (.table 5) ∧
        (L'.tables[5]?).map (·.rawget (.int 7)) = some (.bool false)) ∧
    ((register "T" ⟨[], [⟨[(.str "_LOADED", .table 1)], none⟩, ⟨[], none⟩, ⟨[], none⟩], [], 100, []⟩).bind
        fun L => push "T" { L with stack := [.int 7] } 42 false) = none := by
  refine ⟨⟨_, rfl, ?_⟩, by decide⟩
  decide

end LClass
