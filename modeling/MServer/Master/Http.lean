import Mathlib.Data.List.Forall2

namespace LHttpSocket

structure HttpInfo where
  method : Nat
  statusCode : Nat
  url : List UInt8
  body : List UInt8
  headField : List (List UInt8 × List UInt8)
deriving DecidableEq, Repr

def HttpInfo.empty : HttpInfo := ⟨0, 0, [], [], []⟩

def fieldFind : List (List UInt8 × List UInt8) → List UInt8 → Option (List UInt8)
  | [], _ => none
  | (k, v) :: m, name => if k = name then some v else fieldFind m name

def fieldAppend : List (List UInt8 × List UInt8) → List UInt8 → List UInt8 → List (List UInt8 × List UInt8)
  | [], name, chunk => [(name, chunk)]
  | (k, v) :: m, name, chunk =>
    if k = name then (k, v ++ chunk) :: m else (k, v) :: fieldAppend m name chunk

theorem fieldFind_fieldAppend (m : List (List UInt8 × List UInt8)) (name chunk x : List UInt8) :
    fieldFind (fieldAppend m name chunk) x =
      if name = x then some ((fieldFind m x).getD [] ++ chunk) else fieldFind m x := by
  induction m with
  | nil => by_cases h : name = x <;> simp [fieldAppend, fieldFind, h]
  | cons p m ih =>
    obtain ⟨k, v⟩ := p
    by_cases hk : k = name
    · subst hk
      by_cases h : k = x <;> simp [fieldAppend, fieldFind, h]
    · simp only [fieldAppend, if_neg hk, fieldFind, ih]
      by_cases hx : k = x
      · subst hx; simp [Ne.symm hk]
      · simp [hx]

structure HttpSocket where
  curHttp : Option HttpInfo
  http : List HttpInfo
  curField : List UInt8
  oldField : List UInt8
deriving DecidableEq, Repr

def init : HttpSocket := ⟨none, [], [], []⟩

def appendUrl (s : HttpSocket) (chunk : List UInt8) : Option HttpSocket :=
  s.curHttp.map fun h => { s with curHttp := some { h with url := h.url ++ chunk } }

def appendBody (s : HttpSocket) (chunk : List UInt8) : Option HttpSocket :=
  s.curHttp.map fun h => { s with curHttp := some { h with body := h.body ++ chunk } }

def appendCurField (s : HttpSocket) (chunk : List UInt8) : HttpSocket :=
  { s with oldField := if s.oldField = [] then s.oldField else [], curField := s.curField ++ chunk }

def appendCurValue (s : HttpSocket) (chunk : List UInt8) : Option HttpSocket :=
  s.curHttp.map fun h =>
    let s := if s.curField ≠ [] then { s with oldField := s.curField, curField := [] } else s
    { s with curHttp := some { h with headField := fieldAppend h.headField s.oldField chunk } }

def onMessageComplete (s : HttpSocket) (method statusCode : Nat) : Option HttpSocket :=
  s.curHttp.map fun h =>
    ⟨some HttpInfo.empty, s.http ++ [{ h with method := method, statusCode := statusCode }], [], []⟩

inductive Callback where
  | messageBegin
  | url (chunk : List UInt8)
  | status (chunk : List UInt8)
  | headerField (chunk : List UInt8)
  | headerValue (chunk : List UInt8)
  | headersComplete
  | body (chunk : List UInt8)
  | messageComplete (method statusCode : Nat)
deriving DecidableEq, Repr

def callback (s : HttpSocket) : Callback → Option HttpSocket
  | .messageBegin => some s
  | .url chunk => appendUrl s chunk
  | .status _ => some s
  | .headerField chunk => some (appendCurField s chunk)
  | .headerValue chunk => appendCurValue s chunk
  | .headersComplete => some s
  | .body chunk => appendBody s chunk
  | .messageComplete method statusCode => onMessageComplete s method statusCode

def execute (s : HttpSocket) (cbs : List Callback) : Option HttpSocket := cbs.foldlM callback s

structure Parse where
  dsize : Nat
  callbacks : List Callback
  nparsed : Nat
  upgrade : Bool
deriving DecidableEq, Repr

def isMessageComplete (s : HttpSocket) (p : Parse) : Option (Int × HttpSocket) :=
  if p.dsize = 0 then none
  else
    let s := if s.curHttp = none then { s with curHttp := some HttpInfo.empty } else s
    (execute s p.callbacks).map fun s =>
      (if p.upgrade then 0 else if p.nparsed ≠ p.dsize then -1 else if s.http = [] then 0 else 1, s)

def runParses (s : HttpSocket) (ps : List Parse) : Option HttpSocket :=
  ps.foldlM (fun s p => (isMessageComplete s p).map Prod.snd) s

theorem execute_append (s : HttpSocket) (xs ys : List Callback) :
    execute s (xs ++ ys) = (execute s xs).bind (execute · ys) := by
  simp [execute, List.foldlM_append]

theorem execute_url (h : HttpInfo) (q : List HttpInfo) (cf of : List UInt8) (cs : List (List UInt8)) :
    execute ⟨some h, q, cf, of⟩ (cs.map .url) = some ⟨some { h with url := h.url ++ cs.flatten }, q, cf, of⟩ := by
  induction cs generalizing h with
  | nil => simp [execute]
  | cons c cs ih =>
    simp only [execute, List.map_cons, List.foldlM_cons, callback, appendUrl, Option.map_some'] at ih ⊢
    simp [ih]

theorem execute_body (h : HttpInfo) (q : List HttpInfo) (cf of : List UInt8) (cs : List (List UInt8)) :
    execute ⟨some h, q, cf, of⟩ (cs.map .body) = some ⟨some { h with body := h.body ++ cs.flatten }, q, cf, of⟩ := by
  induction cs generalizing h with
  | nil => simp [execute]
  | cons c cs ih =>
    simp only [execute, List.map_cons, List.foldlM_cons, callback, appendBody, Option.map_some'] at ih ⊢
    simp [ih]

theorem execute_status (s : HttpSocket) (cs : List (List UInt8)) : execute s (cs.map .status) = some s := by
  induction cs with
  | nil => rfl
  | cons c cs ih => simpa [execute, callback] using ih

@[simp] theorem clear_if_nonempty (l : List UInt8) : (if l = [] then l else []) = [] := by
  split <;> simp_all

theorem execute_field (h : HttpInfo) (q : List HttpInfo) (cf : List UInt8) (cs : List (List UInt8)) :
    execute ⟨some h, q, cf, []⟩ (cs.map .headerField) = some ⟨some h, q, cf ++ cs.flatten, []⟩ := by
  induction cs generalizing cf with
  | nil => simp [execute]
  | cons c cs ih =>
    simp only [execute, List.map_cons, List.foldlM_cons, callback] at ih ⊢
    simp [appendCurField, ih]

theorem execute_field_run (h : HttpInfo) (q : List HttpInfo) (of : List UInt8) {cs : List (List UInt8)}
    (hcs : cs ≠ []) :
    execute ⟨some h, q, [], of⟩ (cs.map .headerField) = some ⟨some h, q, cs.flatten, []⟩ := by
  obtain ⟨c, cs, rfl⟩ := List.exists_cons_of_ne_nil hcs
  have := execute_field h q c cs
  simp only [execute, List.map_cons, List.foldlM_cons, callback] at this ⊢
  simpa [appendCurField] using this

theorem appendCurValue_first (h : HttpInfo) (q : List HttpInfo) (name chunk : List UInt8) :
    appendCurValue ⟨some h, q, name, []⟩ chunk =
      some ⟨some { h with headField := fieldAppend h.headField name chunk }, q, [], name⟩ := by
  by_cases hn : name = [] <;> simp [appendCurValue, hn]

theorem execute_value (h : HttpInfo) (q : List HttpInfo) (name : List UInt8) (vs : List (List UInt8)) :
    execute ⟨some h, q, [], name⟩ (vs.map .headerValue) =
      some ⟨some { h with headField := vs.foldl (fun m v => fieldAppend m name v) h.headField }, q, [], name⟩ := by
  induction vs generalizing h with
  | nil => simp [execute]
  | cons v vs ih =>
    simp only [execute, List.map_cons, List.foldlM_cons, callback] at ih ⊢
    simp [appendCurValue, ih]

structure Header where
  field : List (List UInt8)
  value : List (List UInt8)
deriving DecidableEq, Repr

def Header.callbacks (hd : Header) : List Callback :=
  hd.field.map .headerField ++ hd.value.map .headerValue

structure Message where
  url : List (List UInt8)
  status : List (List UInt8)
  headers : List Header
  body : List (List UInt8)
  method : Nat
  statusCode : Nat
deriving DecidableEq, Repr

def Message.callbacks (m : Message) : List Callback :=
  [.messageBegin] ++ m.url.map .url ++ m.status.map .status ++ m.headers.flatMap Header.callbacks ++
    [.headersComplete] ++ m.body.map .body ++ [.messageComplete m.method m.statusCode]

def Message.WellFormed (m : Message) : Prop := ∀ hd ∈ m.headers, hd.field ≠ [] ∧ hd.value ≠ []

instance : DecidablePred Message.WellFormed := fun m =>
  inferInstanceAs (Decidable (∀ hd ∈ m.headers, hd.field ≠ [] ∧ hd.value ≠ []))

def Message.headerValue (m : Message) (name : List UInt8) : Option (List UInt8) :=
  let hs := m.headers.filter fun hd => hd.field.flatten = name
  if hs = [] then none else some (hs.flatMap Header.value).flatten

structure Delivered (m : Message) (i : HttpInfo) : Prop where
  url : i.url = m.url.flatten
  body : i.body = m.body.flatten
  method : i.method = m.method
  statusCode : i.statusCode = m.statusCode
  headField : ∀ name, fieldFind i.headField name = m.headerValue name

def headersInto (m0 : List (List UInt8 × List UInt8)) (hs : List Header) : List (List UInt8 × List UInt8) :=
  hs.foldl (fun m hd => hd.value.foldl (fun m v => fieldAppend m hd.field.flatten v) m) m0

theorem execute_header (h : HttpInfo) (q : List HttpInfo) (of : List UInt8) {hd : Header}
    (hf : hd.field ≠ []) (hv : hd.value ≠ []) :
    execute ⟨some h, q, [], of⟩ hd.callbacks =
      some ⟨some { h with headField := headersInto h.headField [hd] }, q, [], hd.field.flatten⟩ := by
  obtain ⟨v, vs, hvs⟩ := List.exists_cons_of_ne_nil hv
  have hval := execute_value { h with headField := fieldAppend h.headField hd.field.flatten v } q
    hd.field.flatten vs
  rw [Header.callbacks, execute_append, execute_field_run h q of hf, hvs]
  simp only [Option.some_bind, List.map_cons, execute, List.foldlM_cons, callback,
    appendCurValue_first] at hval ⊢
  simpa [headersInto, hvs] using hval

theorem execute_headers (h : HttpInfo) (q : List HttpInfo) (of : List UInt8) (hs : List Header)
    (hwf : ∀ hd ∈ hs, hd.field ≠ [] ∧ hd.value ≠ []) :
    ∃ of', execute ⟨some h, q, [], of⟩ (hs.flatMap Header.callbacks) =
      some ⟨some { h with headField := headersInto h.headField hs }, q, [], of'⟩ := by
  induction hs generalizing h of with
  | nil => exact ⟨of, by simp [execute, headersInto]⟩
  | cons hd hs ih =>
    obtain ⟨hf, hv⟩ := hwf hd (List.mem_cons_self _ _)
    obtain ⟨of', h'⟩ := ih { h with headField := headersInto h.headField [hd] } hd.field.flatten
      fun x hx => hwf x (List.mem_cons_of_mem _ hx)
    refine ⟨of', ?_⟩
    rw [List.flatMap_cons, execute_append, execute_header h q of hf hv, Option.some_bind, h']
    simp [headersInto]

def Message.info (m : Message) : HttpInfo :=
  ⟨m.method, m.statusCode, m.url.flatten, m.body.flatten, headersInto [] m.headers⟩

theorem execute_message (q : List HttpInfo) (of : List UInt8) {m : Message} (hwf : m.WellFormed) :
    execute ⟨some HttpInfo.empty, q, [], of⟩ m.callbacks =
      some ⟨some HttpInfo.empty, q ++ [m.info], [], []⟩ := by
  obtain ⟨of', hh⟩ := execute_headers ⟨0, 0, m.url.flatten, [], []⟩ q of m.headers hwf
  simp only [Message.callbacks, execute_append]
  rw [show execute ⟨some HttpInfo.empty, q, [], of⟩ [.messageBegin] =
      some ⟨some HttpInfo.empty, q, [], of⟩ from rfl,
    Option.some_bind, execute_url, Option.some_bind, execute_status, Option.some_bind]
  erw [hh]
  rw [Option.some_bind, show ∀ s, execute s [.headersComplete] = some s from fun _ => rfl, Option.some_bind,
    execute_body, Option.some_bind]
  simp [execute, callback, onMessageComplete, Message.info, HttpInfo.empty]

theorem fieldFind_foldl_append (name x : List UInt8) (vs : List (List UInt8))
    (m0 : List (List UInt8 × List UInt8)) :
    fieldFind (vs.foldl (fun m v => fieldAppend m name v) m0) x =
      if name = x ∧ vs ≠ [] then some ((fieldFind m0 x).getD [] ++ vs.flatten) else fieldFind m0 x := by
  induction vs generalizing m0 with
  | nil => simp
  | cons v vs ih =>
    rw [List.foldl_cons, ih, fieldFind_fieldAppend]
    by_cases hx : name = x <;> by_cases hvs : vs = [] <;> simp [hx, hvs]

theorem fieldFind_headersInto (hs : List Header) (hwf : ∀ hd ∈ hs, hd.value ≠ [])
    (m0 : List (List UInt8 × List UInt8)) (x : List UInt8) :
    fieldFind (headersInto m0 hs) x =
      if hs.filter (fun hd => hd.field.flatten = x) = [] then fieldFind m0 x
      else some ((fieldFind m0 x).getD [] ++
        ((hs.filter fun hd => hd.field.flatten = x).flatMap Header.value).flatten) := by
  induction hs generalizing m0 with
  | nil => simp [headersInto]
  | cons hd hs ih =>
    have hv := hwf hd (List.mem_cons_self _ _)
    have ih := ih (fun y hy => hwf y (List.mem_cons_of_mem _ hy))
    simp only [headersInto, List.foldl_cons] at ih ⊢
    rw [ih, fieldFind_foldl_append]
    by_cases hx : hd.field.flatten = x
    · by_cases hr : hs.filter (fun hd => hd.field.flatten = x) = [] <;> simp [hx, hv, hr]
    · simp [hx]

theorem delivered_info {m : Message} (hwf : m.WellFormed) : Delivered m m.info where
  url := rfl
  body := rfl
  method := rfl
  statusCode := rfl
  headField name := by
    rw [Message.info, fieldFind_headersInto _ (fun hd h => (hwf hd h).2), Message.headerValue]
    simp [fieldFind]

theorem execute_messages (q : List HttpInfo) (msgs : List Message) (hwf : ∀ m ∈ msgs, m.WellFormed) :
    execute ⟨some HttpInfo.empty, q, [], []⟩ (msgs.flatMap Message.callbacks) =
      some ⟨some HttpInfo.empty, q ++ msgs.map Message.info, [], []⟩ := by
  induction msgs generalizing q with
  | nil => simp [execute]
  | cons m msgs ih =>
    rw [List.flatMap_cons, execute_append, execute_message q [] (hwf m (List.mem_cons_self _ _)),
      Option.some_bind, ih _ fun x hx => hwf x (List.mem_cons_of_mem _ hx)]
    simp

theorem callback_active {s s' : HttpSocket} (hs : s.curHttp ≠ none) {c : Callback}
    (h : callback s c = some s') : s'.curHttp ≠ none := by
  obtain ⟨hi, hsome⟩ := Option.ne_none_iff_exists'.1 hs
  cases c <;> simp [callback, appendUrl, appendBody, appendCurField, appendCurValue, onMessageComplete,
    hsome] at h <;> subst h <;> simp_all

theorem execute_active {s s' : HttpSocket} (hs : s.curHttp ≠ none) {cbs : List Callback}
    (h : execute s cbs = some s') : s'.curHttp ≠ none := by
  induction cbs generalizing s with
  | nil => simp only [execute, List.foldlM_nil, pure, Option.some.injEq] at h; exact h ▸ hs
  | cons c cbs ih =>
    simp only [execute, List.foldlM_cons, Option.bind_eq_bind, Option.bind_eq_some] at h
    obtain ⟨s1, h1, h2⟩ := h
    exact ih (callback_active hs h1) h2

theorem runParses_active {s : HttpSocket} (hs : s.curHttp ≠ none) (ps : List Parse)
    (hsize : ∀ p ∈ ps, 0 < p.dsize) :
    runParses s ps = execute s (ps.flatMap Parse.callbacks) := by
  induction ps generalizing s with
  | nil => rfl
  | cons p ps ih =>
    have hp := Nat.pos_iff_ne_zero.1 (hsize p (List.mem_cons_self _ _))
    rw [List.flatMap_cons, execute_append]
    simp only [runParses, List.foldlM_cons, isMessageComplete, hp, if_false, hs, Option.map_map]
    cases he : execute s p.callbacks with
    | none => rfl
    | some s1 =>
      exact ih (execute_active hs he) fun x hx => hsize x (List.mem_cons_of_mem _ hx)

theorem http_queue_gains_messages (msgs : List Message) (hwf : ∀ m ∈ msgs, m.WellFormed)
    (ps : List Parse) (hsize : ∀ p ∈ ps, 0 < p.dsize)
    (hsplit : ps.flatMap Parse.callbacks = msgs.flatMap Message.callbacks) :
    ∃ s, runParses init ps = some s ∧ List.Forall₂ Delivered msgs s.http ∧
      s.curField = [] ∧ s.oldField = [] := by
  have hdel : List.Forall₂ Delivered msgs (msgs.map Message.info) :=
    List.forall₂_map_right_iff.2 (List.forall₂_same.2 fun m hm => delivered_info (hwf m hm))
  cases ps with
  | nil =>
    have hmsgs : msgs = [] := by
      cases msgs with
      | nil => rfl
      | cons m _ => simp [Message.callbacks] at hsplit
    subst hmsgs
    exact ⟨init, rfl, .nil, rfl, rfl⟩
  | cons p ps =>
    have hp := Nat.pos_iff_ne_zero.1 (hsize p (List.mem_cons_self _ _))
    have hfirst : runParses init (p :: ps) = runParses ⟨some HttpInfo.empty, [], [], []⟩ (p :: ps) := by
      simp [runParses, isMessageComplete, hp, init]
    refine ⟨⟨some HttpInfo.empty, msgs.map Message.info, [], []⟩, ?_, hdel, rfl, rfl⟩
    rw [hfirst, runParses_active (by simp) _ hsize, hsplit, execute_messages [] msgs hwf, List.nil_append]

theorem http_queue_gains_messages_sample :
    (∀ m ∈ [(⟨[[47], [97]], [], [⟨[[72], [111]], [[120], []]⟩, ⟨[[72, 111]], [[121]]⟩], [[98]], 1, 0⟩ :
          Message),
        ⟨[], [[79, 75]], [], [], 0, 200⟩], m.WellFormed) ∧
      (∀ p ∈ [(⟨3, [.messageBegin, .url [47], .url [97], .headerField [72]], 3, false⟩ : Parse),
        ⟨7, [.headerField [111], .headerValue [120], .headerValue [], .headerField [72, 111], .headerValue [121],
          .headersComplete, .body [98], .messageComplete 1 0, .messageBegin, .status [79, 75], .headersComplete,
          .messageComplete 0 200], 7, false⟩], 0 < p.dsize) ∧
      [(⟨3, [.messageBegin, .url [47], .url [97], .headerField [72]], 3, false⟩ : Parse),
        ⟨7, [.headerField [111], .headerValue [120], .headerValue [], .headerField [72, 111], .headerValue [121],
          .headersComplete, .body [98], .messageComplete 1 0, .messageBegin, .status [79, 75], .headersComplete,
          .messageComplete 0 200], 7, false⟩].flatMap Parse.callbacks =
        [(⟨[[47], [97]], [], [⟨[[72], [111]], [[120], []]⟩, ⟨[[72, 111]], [[121]]⟩], [[98]], 1, 0⟩ :
          Message),
        ⟨[], [[79, 75]], [], [], 0, 200⟩].flatMap Message.callbacks ∧
      ∃ s, runParses init [(⟨3, [.messageBegin, .url [47], .url [97], .headerField [72]], 3, false⟩ : Parse),
        ⟨7, [.headerField [111], .headerValue [120], .headerValue [], .headerField [72, 111], .headerValue [121],
          .headersComplete, .body [98], .messageComplete 1 0, .messageBegin, .status [79, 75], .headersComplete,
          .messageComplete 0 200], 7, false⟩] = some s ∧
        List.Forall₂ Delivered
          [(⟨[[47], [97]], [], [⟨[[72], [111]], [[120], []]⟩, ⟨[[72, 111]], [[121]]⟩], [[98]], 1, 0⟩ : Message),
            ⟨[], [[79, 75]], [], [], 0, 200⟩] s.http ∧ s.curField = [] ∧ s.oldField = [] := by
  have hwf : ∀ m ∈ [(⟨[[47], [97]], [], [⟨[[72], [111]], [[120], []]⟩, ⟨[[72, 111]], [[121]]⟩], [[98]], 1, 0⟩ :
      Message),
        ⟨[], [[79, 75]], [], [], 0, 200⟩], m.WellFormed := by decide
  have hsize : ∀ p ∈ [(⟨3, [.messageBegin, .url [47], .url [97], .headerField [72]], 3, false⟩ : Parse),
        ⟨7, [.headerField [111], .headerValue [120], .headerValue [], .headerField [72, 111], .headerValue [121],
          .headersComplete, .body [98], .messageComplete 1 0, .messageBegin, .status [79, 75], .headersComplete,
          .messageComplete 0 200], 7, false⟩], 0 < p.dsize := by decide
  exact ⟨hwf, hsize, rfl, http_queue_gains_messages _ hwf _ hsize rfl⟩

end LHttpSocket
