import MServer.Master.LClass
import Mathlib.Data.List.Nodup

namespace LClass

open Lua State

variable {L L' : State}

theorem sameHeap_weaktable {mode : String} (h : weaktable L mode = some L') : SameHeap L L' := by
  simp only [weaktable, Option.bind_eq_bind, Option.bind_eq_some] at h
  obtain ⟨L₁, h₁, ⟨r, L₂⟩, h₂, h⟩ := h
  exact ((⟨rfl, rfl, rfl⟩ : SameHeap L L.newtable).trans (sameHeap_pushvalue h₁)).trans
    ((sameHeap_setmetatable h₂).trans
      ((⟨rfl, rfl, rfl⟩ : SameHeap L₂ ((L₂.pushstring "__mode").pushstring mode)).trans (sameHeap_settable h)))

theorem sameHeap_subtable {tindex : Int} {name mode : String} (h : subtable L tindex name mode = some L') :
    SameHeap L L' := by
  simp only [subtable, Option.bind_eq_bind, Option.bind_eq_some] at h
  obtain ⟨L₁, h₁, b, -, h⟩ := h
  refine ((⟨rfl, rfl, rfl⟩ : SameHeap L (L.pushstring name)).trans (sameHeap_gettable h₁)).trans ?_
  cases b
  · simp only [Bool.false_eq_true, if_false, Option.pure_def, Option.some.injEq] at h
    subst h; exact ⟨rfl, rfl, rfl⟩
  · simp only [if_true, Option.bind_eq_some] at h
    obtain ⟨L₂, h₂, L₃, h₃, L₄, h₄, h⟩ := h
    exact (sameHeap_pop h₂).trans ((sameHeap_weaktable h₃).trans
      (((⟨rfl, rfl, rfl⟩ : SameHeap L₃ (L₃.pushstring name)).trans (sameHeap_pushvalue h₄)).trans
        (sameHeap_settable h)))

theorem push_sameHeap {classname : String} {obj : Nat} {gc : Bool} {r : Int}
    (h : push classname L obj gc = some (r, L')) : SameHeap (L.newuserdata obj) L' := by
  simp only [push, Option.bind_eq_bind, Option.bind_eq_some] at h
  obtain ⟨L₁, h₁, h⟩ := h
  refine (sameHeap_getmetatable h₁).trans ?_
  split at h
  · simp only [Option.bind_eq_some] at h
    obtain ⟨L₂, h₂, L₃, h₃, L₄, h₄, L₅, h₅, h⟩ := h
    exact (sameHeap_subtable h₂).trans ((sameHeap_pushvalue h₃).trans
      (((⟨rfl, rfl, rfl⟩ : SameHeap L₃ (L₃.pushboolean false)).trans (sameHeap_settable h₄)).trans
        ((sameHeap_pop h₅).trans (sameHeap_setmetatable h))))
  · simp only [Option.pure_def, Option.some_bind] at h
    exact sameHeap_setmetatable h

theorem cnew_sameHeap {r : Int} (h : cnew L = some (r, L')) :
    SameHeap ({ L with nextObj := L.nextObj + 1 }.newuserdata L.nextObj) L' := by
  simp only [cnew, Option.bind_eq_bind, Option.bind_eq_some] at h
  obtain ⟨L₁, h₁, h⟩ := h
  exact (sameHeap_insert h₁).trans (sameHeap_setmetatable h)

theorem gc_sameHeap {classname : String} {r : Int} (h : gc classname L = some (r, L')) :
    SameHeap L L' ∨ ∃ L₁ u d, SameHeap L L₁ ∧ L₁.udata[u]? = some d ∧
      SameHeap { L₁ with udata := L₁.udata.set u { d with ptr := none }, deleted := L₁.deleted ++ d.ptr.toList } L' := by
  simp only [gc, Option.bind_eq_bind, Option.bind_eq_some] at h
  obtain ⟨⟨n, L₁⟩, h₁, h⟩ := h
  dsimp only at h
  have hL₁ := sameHeap_getmetafield h₁
  split at h <;> simp only [Option.bind_eq_some] at h
  on_goal 1 =>
    obtain ⟨L₂, h₂, L₃, h₃, b, -, y, hy, h⟩ := h
    replace hy : SameHeap L y.2 := by
      cases hy; exact hL₁.trans ((sameHeap_pushvalue h₂).trans (sameHeap_gettable h₃))
  on_goal 2 =>
    obtain ⟨y, hy, h⟩ := h
    replace hy : SameHeap L y.2 := by cases hy; exact hL₁
  all_goals
    split at h
    · simp only [Option.pure_def, Option.some.injEq, Prod.mk.injEq] at h
      obtain ⟨-, rfl⟩ := h
      exact .inl hy
    · simp only [Option.bind_eq_some, Option.pure_def, Option.some.injEq, Prod.mk.injEq] at h
      obtain ⟨u, -, d, hd, -, rfl⟩ := h
      refine .inr ⟨y.2, u, d, hy, hd, ?_⟩
      rcases hp : d.ptr with _ | obj <;> simp only [hp] <;> exact ⟨rfl, by simp, rfl⟩

theorem filterMap_set_none {l : List (Option Nat)} {u : Nat} {x : Option Nat} (h : l[u]? = some x) :
    ((l.set u none).filterMap id ++ x.toList).Perm (l.filterMap id) := by
  induction l generalizing u with
  | nil => simp at h
  | cons a l ih =>
    cases u with
    | zero =>
      obtain rfl : a = x := by simpa using h
      cases a <;> simp [List.perm_append_comm]
    | succ u =>
      cases a <;> simp [ih (by simpa using h)]

theorem ledger_finalize {u : Nat} {d : Udata} (hd : L.udata[u]? = some d) :
    ({ L with udata := L.udata.set u { d with ptr := none }, deleted := L.deleted ++ d.ptr.toList }.owned ++
      (L.deleted ++ d.ptr.toList)).Perm (L.owned ++ L.deleted) := by
  have hx : (L.udata.map Udata.ptr)[u]? = some d.ptr := by simp [hd]
  have hset := filterMap_set_none hx
  simp only [State.owned, List.map_set] at hset ⊢
  refine (List.perm_append_comm.append_left _).trans ?_
  rw [← List.append_assoc]
  exact hset.append_right _

def Call.created (n : Nat) : Call → List Nat
  | .push _ obj _ => [obj]
  | .cnew => [n]
  | .finalize _ => []

def Call.next (n : Nat) : Call → Nat
  | .cnew => n + 1
  | _ => n

def created : Nat → List Call → List Nat
  | _, [] => []
  | n, c :: cs => c.created n ++ created (c.next n) cs

theorem ledger_newuserdata (K : State) (obj : Nat) :
    ((K.newuserdata obj).owned ++ K.deleted).Perm (K.owned ++ K.deleted ++ [obj]) := by
  rw [State.owned_newuserdata, List.append_assoc, List.append_assoc]
  exact List.perm_append_comm.append_left _

theorem call_ledger {classname : String} {c : Call} (h : call classname L c = some L') :
    (L'.owned ++ L'.deleted).Perm (L.owned ++ L.deleted ++ c.created L.nextObj) ∧
      L'.nextObj = c.next L.nextObj := by
  cases c with
  | push frame obj gc =>
    obtain ⟨⟨r, L₁⟩, hp, rfl⟩ := Option.map_eq_some'.1 h
    have hs := push_sameHeap hp
    exact ⟨(List.Perm.of_eq hs.ledger_eq).trans (ledger_newuserdata { L with stack := frame } obj), hs.nextObj⟩
  | cnew =>
    simp only [call, Option.bind_eq_bind, Option.bind_eq_some, Option.map_eq_some'] at h
    obtain ⟨mt, -, ⟨r, L₁⟩, hc, rfl⟩ := h
    have hs := cnew_sameHeap hc
    exact ⟨(List.Perm.of_eq hs.ledger_eq).trans
      (ledger_newuserdata { L with stack := [mt], nextObj := L.nextObj + 1 } L.nextObj), hs.nextObj⟩
  | finalize u =>
    obtain ⟨⟨r, L₁⟩, hg, rfl⟩ := Option.map_eq_some'.1 h
    rcases gc_sameHeap hg with hs | ⟨L₂, v, d, hs, hd, hs'⟩
    · exact ⟨(List.Perm.of_eq hs.ledger_eq).trans (List.Perm.of_eq (List.append_nil _).symm), hs.nextObj⟩
    · refine ⟨(List.Perm.of_eq hs'.ledger_eq).trans ((ledger_finalize hd).trans
        ((List.Perm.of_eq hs.ledger_eq).trans (List.Perm.of_eq (List.append_nil _).symm))), ?_⟩
      exact hs'.nextObj.trans hs.nextObj

theorem ledger_runCalls {classname : String} {calls : List Call} (h : runCalls classname L calls = some L') :
    (L'.owned ++ L'.deleted).Perm (L.owned ++ L.deleted ++ created L.nextObj calls) := by
  induction calls generalizing L with
  | nil => cases h; simp [created]
  | cons c cs ih =>
    simp only [runCalls, List.foldlM_cons, Option.bind_eq_bind, Option.bind_eq_some] at h
    obtain ⟨L₁, h₁, h⟩ := h
    obtain ⟨hp, hn⟩ := call_ledger h₁
    have := ih h
    rw [hn] at this
    refine this.trans ?_
    rw [created, ← List.append_assoc]
    exact hp.append_right _

theorem runCalls_conserves_objects (classname : String) (L : State) (calls : List Call) {L' : State}
    (h : runCalls classname L calls = some L') :
    (L'.owned ++ L'.deleted).Perm (L.owned ++ L.deleted ++ created L.nextObj calls) ∧
      ((L.owned ++ L.deleted ++ created L.nextObj calls).Nodup →
        L'.deleted.Nodup ∧ ∀ o ∈ L'.deleted, o ∉ L'.owned) := by
  have hp := ledger_runCalls h
  refine ⟨hp, fun hnd => ?_⟩
  obtain ⟨-, hdel, hdisj⟩ := List.nodup_append.1 (hp.nodup_iff.2 hnd)
  exact ⟨hdel, fun o ho hown => hdisj hown ho⟩

theorem runCalls_conserves_objects_sample :
    ∃ L', runCalls "T" ⟨[], [⟨[(.str "T", .table 1)], none⟩, ⟨[], none⟩], [], 100, []⟩
        [.push [] 7 true, .cnew, .finalize 0, .finalize 1, .finalize 1] = some L' ∧
      (L'.owned ++ L'.deleted).Perm ((⟨[], [⟨[(.str "T", .table 1)], none⟩, ⟨[], none⟩], [], 100, []⟩ : State).owned ++
        [] ++ created 100 [.push [] 7 true, .cnew, .finalize 0, .finalize 1, .finalize 1]) ∧
      (((⟨[], [⟨[(.str "T", .table 1)], none⟩, ⟨[], none⟩], [], 100, []⟩ : State).owned ++ [] ++
          created 100 [.push [] 7 true, .cnew, .finalize 0, .finalize 1, .finalize 1]).Nodup →
        L'.deleted.Nodup ∧ ∀ o ∈ L'.deleted, o ∉ L'.owned) :=
  ⟨_, rfl, runCalls_conserves_objects "T" ⟨[], [⟨[(.str "T", .table 1)], none⟩, ⟨[], none⟩], [], 100, []⟩
    [.push [] 7 true, .cnew, .finalize 0, .finalize 1, .finalize 1] rfl⟩

end LClass
