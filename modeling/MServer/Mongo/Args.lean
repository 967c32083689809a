import MServer.Mongo.Queue
import Mathlib.Data.List.Nodup

namespace LMongo

inductive Arg where
  | nil
  | boolean (b : Bool)
  | integer (n : Int)
  | string (s : String)
  | table (t : Nat)
  deriving DecidableEq, Repr

namespace Arg

def toboolean : Arg → Bool
  | .nil => false
  | .boolean b => b
  | _ => true

def tointeger : Arg → Option Int
  | .integer n => some n
  | .string s => s.toInt?
  | _ => none

def tostring : Arg → Option String
  | .string s => some s
  | .integer n => some (toString n)
  | _ => none

def totable : Arg → Option Nat
  | .table t => some t
  | _ => none

end Arg

inductive Error where
  | notActive
  | badArgument (index : Nat)
  | tableToBson
  | jsonToBson
  | expectTableOrJson (index : Nat)
  deriving DecidableEq, Repr

structure Heap where
  next : Nat
  live : List Nat
  deriving DecidableEq, Repr

abbrev M := ExceptT Error (StateM Heap)

def bsonNew : M Nat := modifyGet fun h => (h.next, ⟨h.next + 1, h.live ++ [h.next]⟩)

def bsonDestroy (d : Nat) : M Unit := modify fun h => { h with live := h.live.erase d }

def cleanBson : List (Option Nat) → M Unit
  | [] => pure ()
  | some d :: bs => do bsonDestroy d; cleanBson bs
  | none :: bs => cleanBson bs

@[simp] theorem run_pure {α : Type} (a : α) (h : Heap) : (pure a : M α).run.run h = (.ok a, h) := rfl

@[simp] theorem run_throw {α : Type} (e : Error) (h : Heap) : (throw e : M α).run.run h = (.error e, h) := rfl

@[simp] theorem run_bind {α β : Type} (x : M α) (f : α → M β) (h : Heap) :
    (x >>= f).run.run h = match x.run.run h with
      | (.ok a, h') => (f a).run.run h'
      | (.error e, h') => (.error e, h') := by
  change (match x h with | (a, s) => ExceptT.bindCont f a s) = _
  rcases hx : x h with ⟨_ | _, _⟩ <;> simp only [ExceptT.run, StateT.run, hx] <;> rfl

@[simp] theorem run_bsonNew (h : Heap) :
    bsonNew.run.run h = (.ok h.next, ⟨h.next + 1, h.live ++ [h.next]⟩) := rfl

@[simp] theorem run_bsonDestroy (d : Nat) (h : Heap) :
    (bsonDestroy d).run.run h = (.ok (), { h with live := h.live.erase d }) := rfl

theorem run_cleanBson (bs : List (Option Nat)) (h : Heap) :
    (cleanBson bs).run.run h = (.ok (), { h with live := (bs.filterMap id).foldl List.erase h.live }) := by
  induction bs generalizing h with
  | nil => rfl
  | cons b bs ih => cases b <;> simp [cleanBson, ih]

section Calls

variable (encode : Nat → Bool) (json : String → Bool) (args : Nat → Arg)

def stringOrTableToBson (index : Nat) (opt : Int) (bs : List (Option Nat)) : M (Option Nat) :=
  match (args index).totable, (args index).tostring with
  | some t, _ => do
    if encode t then return some (← bsonNew)
    cleanBson bs
    throw .tableToBson
  | none, some s => do
    if json s then return some (← bsonNew)
    cleanBson bs
    throw .jsonToBson
  | none, none => do
    if opt = 0 then return none
    if opt = 1 then return some (← bsonNew)
    throw (.expectTableOrJson index)

def convertAll : List (Nat × Int) → List (Option Nat) → M (List (Option Nat))
  | [], docs => pure docs
  | (index, opt) :: rest, docs => do
    let d ← stringOrTableToBson encode json args index opt docs
    convertAll rest (docs ++ [d])

structure Query where
  qid : Int
  mqt : MQT
  collection : String
  docs : List (Option Nat)
  flags : List Bool
  deriving DecidableEq, Repr

namespace Lua

def queryCall (active : Bool) (mqt : MQT) (convs : List (Nat × Int)) (flags : List Nat) : M Query := do
  if !active then throw .notActive
  let some id := (args 1).tointeger | throw (.badArgument 1)
  let some collection := (args 2).tostring | throw (.badArgument 2)
  let docs ← convertAll encode json args convs []
  return ⟨id.bmod 4294967296, mqt, collection, docs, flags.map fun i => (args i).toboolean⟩

def count (active : Bool) : M Query := queryCall encode json args active .count [(3, 0), (4, 0)] []

def find (active : Bool) : M Query := queryCall encode json args active .find [(3, 1), (4, 0)] []

def findAndModify (active : Bool) : M Query :=
  queryCall encode json args active .fmod [(3, 1), (4, 0), (5, 1), (6, 0)] [7, 8, 9]

def insert (defaultOpt : Int) (active : Bool) : M Query :=
  queryCall encode json args active .insert [(3, defaultOpt)] []

def update (defaultOpt : Int) (active : Bool) : M Query :=
  queryCall encode json args active .update [(3, defaultOpt), (4, -1)] [5, 6]

def remove (defaultOpt : Int) (active : Bool) : M Query :=
  queryCall encode json args active .remove [(3, defaultOpt)] [4]

end Lua

theorem foldl_erase_append (base l : List Nat) (hl : ∀ y ∈ l, y ∉ base) :
    l.foldl List.erase (base ++ l) = base := by
  induction l with
  | nil => simp
  | cons y ys ih =>
    rw [List.foldl_cons, List.erase_append_right _ (hl y (List.mem_cons_self _ _)), List.erase_cons_head]
    exact ih fun x hx => hl x (List.mem_cons_of_mem _ hx)

structure Made (base : List Nat) (start : Nat) (h : Heap) (docs : List (Option Nat)) : Prop where
  live : h.live = base ++ docs.filterMap id
  old : ∀ x ∈ base, x < start
  new : ∀ y ∈ docs.filterMap id, start ≤ y ∧ y < h.next
  nodup : (docs.filterMap id).Nodup
  start_le : start ≤ h.next

namespace Made

variable {base : List Nat} {start : Nat} {h : Heap} {docs : List (Option Nat)}

theorem init (hf : ∀ d ∈ h.live, d < h.next) : Made h.live h.next h [] :=
  ⟨by simp, hf, by simp, List.nodup_nil, le_rfl⟩

theorem clean (hm : Made base start h docs) :
    (cleanBson docs).run.run h = (.ok (), { h with live := base }) := by
  rw [run_cleanBson, hm.live, foldl_erase_append]
  intro y hy hb
  exact absurd (hm.new y hy).1 (Nat.not_le.2 (hm.old y hb))

theorem alloc (hm : Made base start h docs) :
    Made base start ⟨h.next + 1, h.live ++ [h.next]⟩ (docs ++ [some h.next]) := by
  have e : (docs ++ [some h.next]).filterMap id = docs.filterMap id ++ [h.next] := by
    rw [List.filterMap_append]; rfl
  refine ⟨by rw [e, hm.live, List.append_assoc], hm.old, fun y hy => ?_, ?_, Nat.le_succ_of_le hm.start_le⟩
  · rw [e, List.mem_append, List.mem_singleton] at hy
    rcases hy with hy | rfl
    · exact ⟨(hm.new y hy).1, Nat.lt_succ_of_lt (hm.new y hy).2⟩
    · exact ⟨hm.start_le, Nat.lt_succ_self _⟩
  · rw [e]
    exact hm.nodup.append (List.nodup_singleton _) fun y hy hy' =>
      absurd (hm.new y hy).2 (by rw [List.mem_singleton.1 hy']; exact lt_irrefl _)

theorem null (hm : Made base start h docs) : Made base start h (docs ++ [none]) := by
  have e : (docs ++ [none]).filterMap id = docs.filterMap id := by
    rw [List.filterMap_append]; exact List.append_nil _
  exact ⟨by rw [e]; exact hm.live, hm.old, by rw [e]; exact hm.new, by rw [e]; exact hm.nodup, hm.start_le⟩

end Made

theorem stringOrTableToBson_made {base : List Nat} {start : Nat} {h : Heap} {docs : List (Option Nat)}
    (hm : Made base start h docs) (index : Nat) (opt : Int) :
    match ((stringOrTableToBson encode json args index opt docs).run.run h :
        Except Error (Option Nat) × Heap) with
    | (.ok d, h') => Made base start h' (docs ++ [d])
    | (.error e, h') => h'.live = base ∨ (e = .expectTableOrJson index ∧ opt ≠ 0 ∧ opt ≠ 1 ∧ h' = h) := by
  unfold stringOrTableToBson
  rcases (args index).totable with _ | t
  · rcases (args index).tostring with _ | s
    · by_cases h0 : opt = 0
      · simpa [h0] using hm.null
      · by_cases h1 : opt = 1 <;> simp [h0, h1, Except.map, hm.alloc]
    · by_cases hj : json s <;> simp [hj, Except.map, hm.alloc, hm.clean]
  · by_cases he : encode t <;> simp [he, Except.map, hm.alloc, hm.clean]

theorem convertAll_made {base : List Nat} {start : Nat} (convs : List (Nat × Int)) :
    ∀ (docs : List (Option Nat)) (h : Heap), Made base start h docs →
      (∀ p ∈ convs.tail, p.2 = 0 ∨ p.2 = 1) →
      (docs.filterMap id ≠ [] → ∀ p ∈ convs, p.2 = 0 ∨ p.2 = 1) →
      match ((convertAll encode json args convs docs).run.run h : Except Error (List (Option Nat)) × Heap) with
      | (.ok docs', h') => Made base start h' docs'
      | (.error _, h') => h'.live = base := by
  induction convs with
  | nil => intro docs h hm _ _; simpa [convertAll] using hm
  | cons c rest ih =>
    intro docs h hm htail hfirst
    obtain ⟨index, opt⟩ := c
    have hc := stringOrTableToBson_made encode json args hm index opt
    simp only [convertAll, run_bind]
    split at hc <;> rename_i hr <;> simp only [hr]
    · exact ih _ _ hc (fun p hp => htail p (List.mem_of_mem_tail hp)) fun _ p hp => htail p hp
    · rcases hc with hc | ⟨-, h0, h1, rfl⟩
      · exact hc
      · by_cases hd : docs.filterMap id = []
        · rw [hm.live, hd, List.append_nil]
        · exact absurd (hfirst hd _ (List.mem_cons_self _ _)) (by simp [h0, h1])

namespace Lua

def Owns (h : Heap) : Except Error Query × Heap → Prop
  | (.error _, h') => h'.live = h.live
  | (.ok q, h') => h'.live = h.live ++ q.docs.filterMap id

theorem queryCall_owns (active : Bool) (mqt : MQT) {convs : List (Nat × Int)} (flags : List Nat) {h : Heap}
    (hf : ∀ d ∈ h.live, d < h.next) (htail : ∀ p ∈ convs.tail, p.2 = 0 ∨ p.2 = 1) :
    Owns h ((queryCall encode json args active mqt convs flags).run.run h) := by
  have hc := convertAll_made encode json args convs [] h (Made.init hf) htail (by simp)
  unfold queryCall
  cases active
  · rfl
  cases (args 1).tointeger
  · rfl
  cases (args 2).tostring
  · rfl
  simp only [Bool.not_true, Bool.false_eq_true, if_false, run_bind, run_pure]
  split at hc <;> rename_i hr <;> simp only [hr]
  · exact hc.live
  · exact hc

theorem query_calls_free_or_hand_over (defaultOpt : Int) (active : Bool) {h : Heap}
    (hf : ∀ d ∈ h.live, d < h.next) :
    Owns h ((count encode json args active).run.run h) ∧ Owns h ((find encode json args active).run.run h) ∧
      Owns h ((findAndModify encode json args active).run.run h) ∧
      Owns h ((insert encode json args defaultOpt active).run.run h) ∧
      Owns h ((remove encode json args defaultOpt active).run.run h) :=
  ⟨queryCall_owns encode json args active .count [] hf (by decide),
    queryCall_owns encode json args active .find [] hf (by decide),
    queryCall_owns encode json args active .fmod [7, 8, 9] hf (by decide),
    queryCall_owns encode json args active .insert [] hf (by simp),
    queryCall_owns encode json args active .remove [4] hf (by simp)⟩

theorem update_leaks_query_bson (defaultOpt : Int) (active : Bool) {h : Heap} (hf : ∀ d ∈ h.live, d < h.next) :
    (Owns h ((update encode json args defaultOpt active).run.run h) ∨
      ∃ h' d, (update encode json args defaultOpt active).run.run h = (.error (.expectTableOrJson 4), h') ∧
        h'.live = h.live ++ [d]) ∧
    ∀ id collection d h1, active = true → (args 1).tointeger = some id → (args 2).tostring = some collection →
      (stringOrTableToBson encode json args 3 defaultOpt []).run.run h = (.ok (some d), h1) →
      (args 4).totable = none → (args 4).tostring = none →
      (update encode json args defaultOpt active).run.run h = (.error (.expectTableOrJson 4), h1) := by
  have h3 := stringOrTableToBson_made encode json args (Made.init hf) 3 defaultOpt
  refine ⟨?_, fun id collection d h1 ha h1' h2' hd h4 h4' => ?_⟩
  · unfold update queryCall
    cases active
    · exact .inl rfl
    cases (args 1).tointeger
    · exact .inl rfl
    cases (args 2).tostring
    · exact .inl rfl
    simp only [Bool.not_true, Bool.false_eq_true, if_false, run_bind, run_pure, convertAll]
    split at h3 <;> rename_i d3 h1 hr3 <;> simp only [hr3]
    · have h4 := stringOrTableToBson_made encode json args h3 4 (-1)
      split at h4 <;> rename_i d4 h2 hr4 <;> simp only [hr4]
      · exact .inl (by simpa [Owns] using h4.live)
      · rcases h4 with h4 | ⟨rfl, -, -, rfl⟩
        · exact .inl h4
        · cases d3 with
          | none => exact .inl (by simpa using h3.live)
          | some d => exact .inr ⟨_, d, rfl, by simpa using h3.live⟩
    · rcases h3 with h3 | ⟨-, -, -, rfl⟩
      · exact .inl h3
      · exact .inl rfl
  · subst ha
    simp [update, queryCall, convertAll, h1', h2', hd]
    simp [stringOrTableToBson, h4, h4', Except.map]

end Lua

end Calls

theorem query_calls_free_or_hand_over_sample :
    (∀ d ∈ ([] : List Nat), d < 0) ∧
      Lua.Owns ⟨0, []⟩ ((Lua.count (fun _ => true) (fun _ => true) (fun _ => .nil) true).run.run ⟨0, []⟩) ∧
      Lua.Owns ⟨0, []⟩ ((Lua.find (fun _ => true) (fun _ => true) (fun _ => .nil) true).run.run ⟨0, []⟩) ∧
      Lua.Owns ⟨0, []⟩ ((Lua.findAndModify (fun _ => true) (fun _ => true) (fun _ => .nil) true).run.run ⟨0, []⟩) ∧
      Lua.Owns ⟨0, []⟩ ((Lua.insert (fun _ => true) (fun _ => true) (fun _ => .nil) (-1) true).run.run ⟨0, []⟩) ∧
      Lua.Owns ⟨0, []⟩ ((Lua.remove (fun _ => true) (fun _ => true) (fun _ => .nil) (-1) true).run.run ⟨0, []⟩) :=
  ⟨by simp, Lua.query_calls_free_or_hand_over (fun _ => true) (fun _ => true) (fun _ => .nil) (-1) true (by simp)⟩

theorem update_leaks_query_bson_sample :
    (∀ d ∈ ([] : List Nat), d < 0) ∧
      (Lua.Owns ⟨0, []⟩ ((Lua.update (fun _ => true) (fun _ => true)
          (fun i => if i = 1 then .integer 7 else if i = 2 then .string "users" else if i = 3 then .table 0
            else .boolean true) (-1) true).run.run ⟨0, []⟩) ∨
        ∃ h' d, (Lua.update (fun _ => true) (fun _ => true)
          (fun i => if i = 1 then .integer 7 else if i = 2 then .string "users" else if i = 3 then .table 0
            else .boolean true) (-1) true).run.run ⟨0, []⟩ = (.error (.expectTableOrJson 4), h') ∧
          h'.live = [] ++ [d]) ∧
      ∀ id collection d h1, true = true → (Arg.integer 7).tointeger = some id →
        (Arg.string "users").tostring = some collection →
        (stringOrTableToBson (fun _ => true) (fun _ => true)
          (fun i => if i = 1 then .integer 7 else if i = 2 then .string "users" else if i = 3 then .table 0
            else .boolean true) 3 (-1) []).run.run ⟨0, []⟩ = (.ok (some d), h1) →
        (Arg.boolean true).totable = none → (Arg.boolean true).tostring = none →
        (Lua.update (fun _ => true) (fun _ => true)
          (fun i => if i = 1 then .integer 7 else if i = 2 then .string "users" else if i = 3 then .table 0
            else .boolean true) (-1) true).run.run ⟨0, []⟩ = (.error (.expectTableOrJson 4), h1) :=
  ⟨by simp, Lua.update_leaks_query_bson (fun _ => true) (fun _ => true)
    (fun i => if i = 1 then .integer 7 else if i = 2 then .string "users" else if i = 3 then .table 0
      else .boolean true) (-1) true (by simp)⟩

end LMongo
