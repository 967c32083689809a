import MServer.Master.Ownership

namespace LClass

open Lua State

def defineField (classname name : String) (v : Value) (L : State) : Option State := do
  let L ← L.getmetatable classname
  let L ← L.getfield (-1) name
  let _ ← L.isnil (-1)
  let L ← L.pop 1
  let L ← (L.push v).setfield (-2) name
  L.pop 1

def «def» (classname funcName thunk : String) (L : State) : Option State :=
  defineField classname funcName (.cfunction thunk) L

def set (classname valName : String) (val : Int) (L : State) : Option State :=
  defineField classname valName (.int val) L

def funThunk (classname : String) (L : State) : Option (Except String (Nat × State)) := do
  let u ← L.checkudata 1 classname
  let d ← L.udata[u]?
  match d.ptr with
  | none => pure (.error (classname ++ " calling method with null pointer"))
  | some obj => do
    let L ← L.remove 1
    pure (.ok (obj, L))

theorem funThunk_cases {classname : String} {L : State} {r : Except String (Nat × State)}
    (h : funThunk classname L = some r) :
    ∃ u d, L.checkudata 1 classname = some u ∧ L.udata[u]? = some d ∧
      (d.ptr = none ∧ r = .error (classname ++ " calling method with null pointer") ∨
        ∃ obj L', d.ptr = some obj ∧ L.remove 1 = some L' ∧ r = .ok (obj, L')) := by
  simp only [funThunk, Option.bind_eq_bind, Option.bind_eq_some] at h
  obtain ⟨u, hu, d, hd, h⟩ := h
  refine ⟨u, d, hu, hd, ?_⟩
  rcases hp : d.ptr with _ | obj <;> simp only [hp, Option.pure_def, Option.some.injEq, Option.bind_eq_some] at h
  · exact .inl ⟨rfl, h.symm⟩
  · obtain ⟨L', hr, rfl⟩ := h
    exact .inr ⟨obj, L', rfl, hr, rfl⟩

theorem checkudata_self {L : State} {u : Nat} {args : List Value} {tname : String} {v : Nat}
    (h : { L with stack := .udata u :: args }.checkudata 1 tname = some v) : v = u := by
  simp only [checkudata, get_one, List.getElem?_cons_zero, Option.some_bind, Option.bind_eq_bind,
    Option.bind_eq_some] at h
  obtain ⟨d, -, reg, -, h⟩ := h
  split at h
  · split at h
    · exact (Option.some_injective _ h).symm
    · cases h
  · cases h

theorem remove_one_self (L : State) (v : Value) (args : List Value) :
    { L with stack := v :: args }.remove 1 = some { L with stack := args } := by
  have h1 : (1 : Int) ≤ args.length + 1 := by omega
  simp [Lua.State.remove, absIndex, h1]

theorem owned_not_deleted {classname : String} {L L' : State} {calls : List Call}
    (h : runCalls classname L calls = some L') (hnd : (L.owned ++ L.deleted ++ created L.nextObj calls).Nodup) :
    ∀ o ∈ L'.owned, o ∉ L'.deleted :=
  fun _ ho hd => (List.nodup_append.1 ((ledger_runCalls h).nodup_iff.2 hnd)).2.2 ho hd

theorem method_calls_never_reach_deleted (classname : String) (L : State) (calls : List Call) {L' : State}
    (h : runCalls classname L calls = some L') (hnd : (L.owned ++ L.deleted ++ created L.nextObj calls).Nodup)
    (u : Nat) (args : List Value) {r : Except String (Nat × State)}
    (hr : funThunk classname { L' with stack := .udata u :: args } = some r) :
    (∃ obj, r = .ok (obj, { L' with stack := args }) ∧ obj ∈ L'.owned ∧ obj ∉ L'.deleted) ∨
      (∃ d, L'.udata[u]? = some d ∧ d.ptr = none) ∧ r = .error (classname ++ " calling method with null pointer") := by
  obtain ⟨v, d, hv, hd, ⟨hp, rfl⟩ | ⟨obj, K, hp, hK, rfl⟩⟩ := funThunk_cases hr <;>
    obtain rfl := checkudata_self hv
  · exact .inr ⟨⟨d, hd, hp⟩, rfl⟩
  · have hown : obj ∈ L'.owned :=
      List.mem_filterMap.2 ⟨d.ptr, List.mem_map_of_mem _ (List.mem_iff_getElem?.2 ⟨v, hd⟩), hp⟩
    rw [remove_one_self, Option.some.injEq] at hK
    exact .inl ⟨obj, by rw [← hK], hown, owned_not_deleted h hnd obj hown⟩

theorem method_calls_never_reach_deleted_sample :
    ∃ L', runCalls "T" ⟨[], [⟨[(.str "T", .table 1)], none⟩, ⟨[], none⟩], [], 100, []⟩
        [.push [] 7 true, .cnew, .finalize 0] = some L' ∧
      ((⟨[], [⟨[(.str "T", .table 1)], none⟩, ⟨[], none⟩], [], 100, []⟩ : State).owned ++ [] ++
        created 100 [.push [] 7 true, .cnew, .finalize 0]).Nodup ∧
      ∃ r, funThunk "T" { L' with stack := [.udata 1, .int 5] } = some r ∧
        ((∃ obj, r = .ok (obj, { L' with stack := [.int 5] }) ∧ obj ∈ L'.owned ∧ obj ∉ L'.deleted) ∨
          (∃ d, L'.udata[1]? = some d ∧ d.ptr = none) ∧ r = .error ("T" ++ " calling method with null pointer")) :=
  ⟨_, rfl, by decide, _, rfl, method_calls_never_reach_deleted "T"
    ⟨[], [⟨[(.str "T", .table 1)], none⟩, ⟨[], none⟩], [], 100, []⟩ [.push [] 7 true, .cnew, .finalize 0]
    rfl
    (by decide) 1 [.int 5] rfl⟩

end LClass
