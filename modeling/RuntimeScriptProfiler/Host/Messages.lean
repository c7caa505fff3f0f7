import Mathlib.Data.List.Nodup
import Mathlib.Logic.Relation
import RuntimeScriptProfiler.Host.PluginManager

/-!
# Messages between plugins

A call only ever adds listeners at the ends of lists, and no listener twice to one list
(`Extends`, `Distinct`), so what a plugin has registered for stays registered, in its
place and with its first handler.

A tree of calls is gone through once for all: a relation that the calls which change the
manager keep to (`ApiCall.Kept`) is kept by every tree. What a message to all delivers is
read off the walk through its listeners (`ApiCall.exec_dispatchMessage`).
-/

namespace RuntimeScriptProfiler

variable {H : Type}

/-! ### An induction over trees of calls -/

namespace ApiCall

/-- A relation that the calls which change the manager keep to. -/
structure Kept (R : PluginManager H → PluginManager H → Prop) : Prop where
  refl : ∀ m, R m m
  trans : ∀ {m m' m''}, R m m' → R m' m'' → R m m''
  setOpcodeBase : ∀ {opcode m m'}, m.setOpcodeBase opcode = some m' → R m m'
  registerListener : ∀ listener sender handler m, R m (m.registerListener listener sender handler).2

/-- Where the rest of some calls comes to an outcome. -/
theorem map_after_eq_ok {ds : Deliveries H} {x : Except Abort (Outcome H)} {r : Outcome H}
    (h : x.map (.after ds) = .ok r) : ∃ r', x = .ok r' ∧ r = r'.after ds := by
  cases x with
  | error e => cases h
  | ok r' =>
    cases h
    exact ⟨r', rfl, rfl⟩

theorem map_after_map_after (ds ds' : Deliveries H) (x : Except Abort (Outcome H)) :
    (x.map (Outcome.after ds')).map (Outcome.after ds) = x.map (Outcome.after (ds ++ ds')) := by
  cases x with
  | error e => rfl
  | ok r =>
    refine congrArg (fun ds => Except.ok (Outcome.mk r.raised r.manager ds)) ?_
    exact (List.append_assoc ds ds' r.delivered).symm

variable {R : PluginManager H → PluginManager H → Prop}

mutual

/-- A relation that the calls keep to is kept by a tree of calls. -/
theorem exec_rel (hR : Kept R) : ∀ (c : ApiCall H) {m : PluginManager H} {r : Outcome H},
    exec c m = .ok r → R m r.manager
  | .setOpcodeBase opcode, m, r, h => by
    rw [exec] at h
    split at h
    · cases h
      exact hR.refl m
    · rename_i m' hset
      cases h
      exact hR.setOpcodeBase hset
  | .registerListener listener sender handler, m, r, h => by
    rw [exec] at h
    cases h
    exact hR.registerListener listener sender handler m
  | .dispatchMessage sender messageType data dataLen receiver replies, m, r, h => by
    rw [exec] at h
    split at h
    · cases h
      exact hR.refl m
    · exact execReplies_rel hR replies h
  | .fault, m, r, h => by
    -- a fault of the plugin's own changes nothing
    rw [exec] at h
    cases h
    exact hR.refl m

theorem execAll_rel (hR : Kept R) :
    ∀ (cs : List (ApiCall H)) {m : PluginManager H} {r : Outcome H},
      execAll cs m = .ok r → R m r.manager
  | [], m, r, h => by
    rw [execAll] at h
    cases h
    exact hR.refl m
  | c :: cs, m, r, h => by
    rw [execAll] at h
    split at h
    · cases h
    · rename_i r₁ hc
      have hfirst := exec_rel hR c hc
      -- the rest is not made after an exception
      split at h
      · cases h
        exact hfirst
      · obtain ⟨r₂, hcs, rfl⟩ := map_after_eq_ok h
        have hrest := execAll_rel hR cs hcs
        exact hR.trans hfirst hrest

theorem execReplies_rel (hR : Kept R) {sender : ℕ} {toAll : Bool} {msg : NVSEMessage} :
    ∀ (replies : List (List (ApiCall H))) {ls : List (PluginListener H)} {m : PluginManager H}
      {r : Outcome H}, execReplies sender toAll msg replies ls m = .ok r → R m r.manager
  | [], ls, m, r, h => by
    rw [execReplies] at h
    cases h
    exact hR.refl m
  | cs :: replies, [], m, r, h => by
    rw [execReplies] at h
    cases h
    exact hR.refl m
  | cs :: replies, l :: ls, m, r, h => by
    rw [execReplies] at h
    split at h
    · cases h
    · rename_i r₁ hcs
      have hfirst := execAll_rel hR cs hcs
      -- after an exception no handler is called, and what may have moved is undefined
      split at h
      · cases h
        exact hfirst
      · split at h
        · cases h
        · obtain ⟨r₂, hreplies, rfl⟩ := map_after_eq_ok h
          have hrest := execReplies_rel hR replies hreplies
          exact hR.trans hfirst hrest

end

end ApiCall

/-! ### What registering adds -/

namespace PluginManager

/-- A list of listeners, as it was or with a listener that was not on it. -/
inductive Grows (listener : ℕ) (handler : Option H) (ls : List (PluginListener H)) :
    List (PluginListener H) → Prop
  | same : Grows listener handler ls ls
  | new (h : H) (hhandler : handler = some h) (hnew : registered listener ls = false) :
      Grows listener handler ls (ls ++ [⟨listener, h⟩])

theorem grows_register (listener : ℕ) (h : H) (ls : List (PluginListener H)) :
    Grows listener (some h) ls (register listener h ls) := by
  unfold register
  cases hnew : registered listener ls with
  | false => exact .new h rfl hnew
  | true => exact .same

theorem grows_registerAll (listener : ℕ) (h : H) (idx : ℕ)
    (lists : List (List (PluginListener H))) (i : ℕ) :
    Grows listener (some h) (lists.getD i []) ((registerAll listener h idx lists).getD i []) := by
  induction lists generalizing idx i with
  | nil => exact .same
  | cons ls rest ih =>
    unfold registerAll
    split
    · cases hnew : registered listener ls with
      | true =>
        rw [if_pos rfl]
        cases i with
        | zero => exact .same
        | succ i => exact ih idx i
      | false =>
        -- the list at hand grows by the listener, and the rest is the loop's
        rw [if_neg Bool.false_ne_true]
        cases i with
        | zero => exact .new h rfl hnew
        | succ i => exact ih (idx + 1) i
    · cases i with
      | zero => exact .same
      | succ i => exact ih (idx + 1) i

/-- Reserving adds empty lists at the end. -/
theorem reserve_eq (m : PluginManager H) :
    ∃ n, m.reserve = { m with pluginListeners := m.pluginListeners ++ List.replicate n [] } ∧
      m.getNumPlugins + 1 ≤ m.pluginListeners.length + n := by
  by_cases hlt : m.pluginListeners.length < m.getNumPlugins + 1
  · exact ⟨_, if_pos hlt, by omega⟩
  · refine ⟨0, (if_neg hlt).trans ?_, by omega⟩
    rw [List.replicate_zero, List.append_nil]

@[simp] theorem listenersOf_reserve (m : PluginManager H) (sender : ℕ) :
    m.reserve.listenersOf sender = m.listenersOf sender := by
  obtain ⟨n, hreserve, -⟩ := reserve_eq m
  rw [hreserve]
  simp only [listenersOf, List.getD_eq_getElem?_getD, List.getElem?_append]
  split
  · rfl
  · rename_i hle
    -- behind the old end the new lists are empty, as a list that is not there counts as
    rw [List.getElem?_replicate, List.getElem?_eq_none (Nat.le_of_not_lt hle)]
    split <;> rfl

/-- **What registering does** to the lists. -/
theorem grows_registerListener (listener : ℕ) (sender : Option String) (handler : Option H)
    (m : PluginManager H) (i : ℕ) :
    Grows listener handler (m.listenersOf i)
      ((m.registerListener listener sender handler).2.listenersOf i) := by
  rw [← listenersOf_reserve m i]
  unfold registerListener
  cases handler with
  | none => exact .same
  | some h =>
    simp only
    -- a listener that is no plugin's handle is not registered
    split
    · exact .same
    · cases sender with
      | none => exact grows_registerAll listener h 0 _ i
      | some sender =>
        simp only
        split
        · exact .same
        · rename_i target _
          simp only [listenersOf, List.getD_eq_getElem?_getD, List.getElem?_modify]
          cases hlist : m.reserve.pluginListeners[i]? with
          | none => exact .same
          | some ls =>
            -- only the list of the named sender is touched
            change Grows listener (some h) ls (if target = i then register listener h ls else ls)
            split
            · exact grows_register listener h ls
            · exact .same

/-- What recording an opcode does. -/
theorem setOpcodeBase_eq_some {opcode : UInt32} {m m' : PluginManager H}
    (h : m.setOpcodeBase opcode = some m') :
    m' = m ∨ ∃ plugin, m.currentLoadingPlugin = some plugin ∧
      m' = { m with currentLoadingPlugin := some { plugin with baseOpcode := opcode } } := by
  unfold setOpcodeBase at h
  split at h
  · obtain ⟨plugin, hplugin, hm⟩ := Option.map_eq_some_iff.mp h
    -- the default opcode, the first other one, and any later one
    split at hm
    · exact Or.inl hm.symm
    · split at hm
      · exact Or.inr ⟨plugin, hplugin, hm.symm⟩
      · exact Or.inl hm.symm
  · cases h

/-- Nothing but the lists of listeners changes. -/
theorem registerListener_frame (listener : ℕ) (sender : Option String) (handler : Option H)
    (m : PluginManager H) :
    let m' := (m.registerListener listener sender handler).2
    m'.plugins = m.plugins ∧ m'.currentLoadingPlugin = m.currentLoadingPlugin ∧
      m'.currentPluginHandle = m.currentPluginHandle := by
  intro m'
  have hreserve : m.reserve.plugins = m.plugins ∧
      m.reserve.currentLoadingPlugin = m.currentLoadingPlugin ∧
      m.reserve.currentPluginHandle = m.currentPluginHandle := by
    obtain ⟨n, hreserve, -⟩ := reserve_eq m
    rw [hreserve]
    exact ⟨rfl, rfl, rfl⟩
  simp only [m']
  unfold registerListener
  cases handler with
  | none => exact hreserve
  | some h =>
    simp only
    split
    · exact hreserve
    · cases sender with
      | none => exact hreserve
      | some sender =>
        simp only
        split <;> exact hreserve

/-! ### The runs of the manager -/

/-- What may happen to the manager: a plugin makes a call, the loading of a plugin begins, the
plugin says who it is, it is put on the list, or the loading is over. -/
inductive Step : PluginManager H → PluginManager H → Prop
  | call {c : ApiCall H} {m : PluginManager H} {r : Outcome H} (h : c.exec m = .ok r) :
      Step m r.manager
  | start (m : PluginManager H) : Step m m.loading
  | query {m : PluginManager H} {plugin : LoadedPlugin} (info : PluginInfo)
      (h : m.currentLoadingPlugin = some plugin) :
      Step m { m with currentLoadingPlugin := some { plugin with info := info } }
  | install {m : PluginManager H} {plugin : LoadedPlugin} (path : String)
      (h : m.currentLoadingPlugin = some plugin) (hname : plugin.info.name.isSome = true) :
      Step m { m with plugins := m.plugins ++ [{ plugin with path := path }] }
  | finish (m : PluginManager H) : Step m m.idle

/-- The states of the manager. -/
def Reachable (m : PluginManager H) : Prop := Relation.ReflTransGen Step (empty H) m

/-- No list has a listener twice. -/
def Distinct (m : PluginManager H) : Prop :=
  ∀ i, ((m.listenersOf i).map PluginListener.listener).Nodup

/-- What was there is still there, in its place. -/
structure Extends (m m' : PluginManager H) : Prop where
  plugins : m.plugins <+: m'.plugins
  length_le : m.pluginListeners.length ≤ m'.pluginListeners.length
  listenersOf : ∀ i, m.listenersOf i <+: m'.listenersOf i
  distinct : m.Distinct → m'.Distinct

theorem Extends.refl (m : PluginManager H) : m.Extends m :=
  ⟨List.prefix_rfl, Nat.le_refl _, fun _ => List.prefix_rfl, id⟩

theorem Extends.trans {m m' m'' : PluginManager H} (h : m.Extends m') (h' : m'.Extends m'') :
    m.Extends m'' where
  plugins := h.plugins.trans h'.plugins
  length_le := Nat.le_trans h.length_le h'.length_le
  listenersOf i := (h.listenersOf i).trans (h'.listenersOf i)
  distinct hm := h'.distinct (h.distinct hm)

theorem Grows.mono {listener : ℕ} {handler : Option H} {ls ls' : List (PluginListener H)}
    (h : Grows listener handler ls ls') : ls <+: ls' := by
  cases h with
  | same => exact List.prefix_rfl
  | new h _ _ => exact List.prefix_append ls _

theorem registered_eq_false_iff {listener : ℕ} {ls : List (PluginListener H)} :
    registered listener ls = false ↔ listener ∉ ls.map PluginListener.listener := by
  rw [registered, List.any_eq_false, List.mem_map]
  simp

theorem Grows.nodup {listener : ℕ} {handler : Option H} {ls ls' : List (PluginListener H)}
    (h : Grows listener handler ls ls') (hls : (ls.map PluginListener.listener).Nodup) :
    (ls'.map PluginListener.listener).Nodup := by
  cases h with
  | same => exact hls
  | new h _ hnew =>
    rw [List.map_append, List.map_singleton]
    -- it is put on the list only if it was not on it
    exact List.nodup_append_comm.mp (List.nodup_cons.mpr ⟨registered_eq_false_iff.mp hnew, hls⟩)

theorem length_registerAll (listener : ℕ) (h : H) (idx : ℕ)
    (lists : List (List (PluginListener H))) :
    (registerAll listener h idx lists).length = lists.length := by
  induction lists generalizing idx with
  | nil => rfl
  | cons ls rest ih =>
    unfold registerAll
    split
    · split
      · exact congrArg (· + 1) (ih idx)
      · exact congrArg (· + 1) (ih (idx + 1))
    · exact congrArg (· + 1) (ih (idx + 1))

/-- Room is reserved for all plugins, and kept. -/
theorem length_registerListener (listener : ℕ) (sender : Option String) (handler : Option H)
    (m : PluginManager H) :
    m.getNumPlugins + 1 ≤ (m.registerListener listener sender handler).2.pluginListeners.length ∧
      m.pluginListeners.length
        ≤ (m.registerListener listener sender handler).2.pluginListeners.length := by
  have hreserve : (m.registerListener listener sender handler).2.pluginListeners.length
      = m.reserve.pluginListeners.length := by
    unfold registerListener
    cases handler with
    | none => rfl
    | some h =>
      simp only
      split
      · rfl
      · cases sender with
        | none => exact length_registerAll listener h 0 _
        | some sender =>
          simp only
          split
          · rfl
          · exact List.length_modify _ _ _
  obtain ⟨n, hm, hn⟩ := reserve_eq m
  rw [hreserve, hm]
  simp only [List.length_append, List.length_replicate]
  omega

/-- Calls leave in place what was there. -/
theorem kept_extends : ApiCall.Kept (Extends (H := H)) where
  refl := .refl
  trans := .trans
  setOpcodeBase {opcode m m'} h := by
    obtain rfl | ⟨plugin, -, rfl⟩ := setOpcodeBase_eq_some h
    · exact .refl _
    · exact ⟨List.prefix_rfl, Nat.le_refl _, fun _ => List.prefix_rfl, id⟩
  registerListener listener sender handler m := by
    have hgrows := grows_registerListener listener sender handler m
    have hplugins := (registerListener_frame listener sender handler m).1
    exact ⟨hplugins ▸ List.prefix_rfl, (length_registerListener listener sender handler m).2,
      fun i => (hgrows i).mono, fun hm i => (hgrows i).nodup (hm i)⟩

theorem Step.extends {m m' : PluginManager H} (h : Step m m') : m.Extends m' := by
  cases h with
  | call h => exact ApiCall.exec_rel kept_extends _ h
  | install path _ _ =>
    exact ⟨List.prefix_append _ _, Nat.le_refl _, fun _ => List.prefix_rfl, id⟩
  | start => exact ⟨List.prefix_rfl, Nat.le_refl _, fun _ => List.prefix_rfl, id⟩
  | query info _ => exact ⟨List.prefix_rfl, Nat.le_refl _, fun _ => List.prefix_rfl, id⟩
  | finish => exact ⟨List.prefix_rfl, Nat.le_refl _, fun _ => List.prefix_rfl, id⟩

/-- A run leaves in place what was there. -/
theorem extends_of_steps {m m' : PluginManager H} (h : Relation.ReflTransGen Step m m') :
    m.Extends m' := by
  induction h with
  | refl => exact .refl m
  | tail _ hstep ih => exact ih.trans hstep.extends

theorem Reachable.distinct {m : PluginManager H} (h : Reachable m) : m.Distinct :=
  (extends_of_steps h).distinct fun _ => List.nodup_nil

end PluginManager

/-! ### Who hears a message -/

namespace ApiCall

/-- Some calls after others: an exception keeps them from being made. -/
theorem execAll_append {cs : List (ApiCall H)} (cs' : List (ApiCall H)) {m : PluginManager H}
    {r : Outcome H} (h : execAll cs m = .ok r) :
    execAll (cs ++ cs') m =
      if r.raised then .ok r else (execAll cs' r.manager).map (.after r.delivered) := by
  -- the manager changes with each of the first calls, so it is part of the induction
  induction cs generalizing m r with
  | nil =>
    rw [execAll] at h
    cases h
    rw [List.nil_append, if_neg Bool.false_ne_true]
    cases execAll cs' m <;> rfl
  | cons c cs ih =>
    rw [execAll] at h
    rw [List.cons_append, execAll]
    cases hc : exec c m with
    | error e =>
      rw [hc] at h
      cases h
    | ok r₁ =>
      rw [hc] at h
      cases hraised : r₁.raised with
      | true =>
        -- it is the first call that raises it
        simp only [hraised, if_true] at h ⊢
        cases h
        rw [if_pos hraised]
      | false =>
        simp only [hraised, Bool.false_eq_true, if_false] at h ⊢
        obtain ⟨r₂, hcs, rfl⟩ := map_after_eq_ok h
        rw [ih hcs]
        change Except.map _ _ = if r₂.raised = true then _ else _
        split
        · rfl
        · exact map_after_map_after r₁.delivered r₂.delivered _

/-- **What a message has delivered** that the listeners of a list were to hear, `m` being the
manager when it was sent and `replies` the calls that its handlers make. -/
structure Delivered (msg : NVSEMessage) (ls : List (PluginListener H))
    (replies : List (List (ApiCall H))) (m : PluginManager H) (r : Outcome H) : Prop where
  /-- The first listeners have been called with it, each once and in order. -/
  calls : r.delivered.map Delivery.call = (ls.take r.delivered.length).map fun l => (l, msg)
  /-- Only an exception keeps it from the others. -/
  all : r.raised = false → r.delivered.length = ls.length
  /-- What has been delivered meanwhile is, up to each handler, what the calls of the handlers
  deliver that are made one after the other. -/
  sent : ∀ k ≤ r.delivered.length, ∃ r', execAll (replies.take k).flatten m = .ok r' ∧
    r'.delivered = (r.delivered.take k).flatMap Delivery.nested ∧
    (k = r.delivered.length → r'.raised = r.raised ∧ r'.manager = r.manager)

/-- Before the first handler nothing has been called. -/
theorem execAll_take_zero (replies : List (List (ApiCall H))) (m : PluginManager H) :
    execAll (replies.take 0).flatten m = .ok ⟨false, m, []⟩ := by
  rw [List.take_zero, List.flatten_nil, execAll]

theorem Delivered.of_nil (msg : NVSEMessage) (ls : List (PluginListener H))
    (m : PluginManager H) :
    Delivered msg ls [] m ⟨false, m, ls.map fun l => .mk l msg []⟩ where
  calls := by
    simp [Function.comp_def]
  all _ := List.length_map _
  sent k _ := by
    refine ⟨⟨false, m, []⟩, by rw [List.take_nil, List.flatten_nil, execAll], ?_,
      fun _ => ⟨rfl, rfl⟩⟩
    rw [← List.map_take, List.flatMap_map]
    exact (List.flatMap_eq_nil_iff.mpr fun _ _ => rfl).symm

/-- Nobody is left to hear it. -/
theorem Delivered.of_nobody (msg : NVSEMessage) (replies : List (List (ApiCall H)))
    (m : PluginManager H) : Delivered msg [] replies m ⟨false, m, []⟩ where
  calls := rfl
  all _ := rfl
  sent k hk := by
    obtain rfl : k = 0 := Nat.le_zero.mp hk
    exact ⟨⟨false, m, []⟩, execAll_take_zero replies m, rfl, fun _ => ⟨rfl, rfl⟩⟩

section Next

variable {msg : NVSEMessage} {ls : List (PluginListener H)} {cs : List (ApiCall H)}
  {m : PluginManager H} {r : Outcome H}

/-- The calls of the first handler, and nothing of it before the first handler. -/
theorem sent_le_one (l : PluginListener H) (replies : List (List (ApiCall H)))
    (h : execAll cs m = .ok r) {k : ℕ} (hk : k ≤ 1) :
    ∃ r', execAll ((cs :: replies).take k).flatten m = .ok r' ∧
      r'.delivered = ([Delivery.mk l msg r.delivered].take k).flatMap Delivery.nested ∧
      (k = 1 → r' = r) := by
  obtain rfl | rfl : k = 0 ∨ k = 1 := by omega
  · exact ⟨⟨false, m, []⟩, execAll_take_zero (cs :: replies) m, rfl, nofun⟩
  · refine ⟨r, ?_, ?_, fun _ => rfl⟩
    · simpa using h
    · simp

/-- The first handler raises an exception. -/
theorem Delivered.of_raised (l : PluginListener H) (replies : List (List (ApiCall H)))
    (h : execAll cs m = .ok r) (hr : r.raised = true) :
    Delivered msg (l :: ls) (cs :: replies) m ⟨true, r.manager, [.mk l msg r.delivered]⟩ where
  calls := rfl
  all := nofun
  sent k hk := by
    obtain ⟨r', hexec, hsent, hsame⟩ := sent_le_one l replies h hk
    refine ⟨r', hexec, hsent, fun hlast => ?_⟩
    obtain rfl := hsame hlast
    exact ⟨hr, rfl⟩

/-- The first handler returns, and the message goes on to the others. -/
theorem Delivered.cons (l : PluginListener H) {replies : List (List (ApiCall H))}
    (h : execAll cs m = .ok r) (hr : r.raised = false) {r' : Outcome H}
    (hrest : Delivered msg ls replies r.manager r') :
    Delivered msg (l :: ls) (cs :: replies) m (r'.after [.mk l msg r.delivered]) where
  calls := congrArg ((l, msg) :: ·) hrest.calls
  all hr' := congrArg (· + 1) (hrest.all hr')
  sent k hk := by
    cases k with
    | zero => exact ⟨⟨false, m, []⟩, execAll_take_zero (cs :: replies) m, rfl, nofun⟩
    | succ k =>
      -- the calls of the first handler, and those of the others after them
      obtain ⟨r₂, hexec, hsent, hsame⟩ := hrest.sent k (Nat.le_of_succ_le_succ hk)
      refine ⟨r₂.after r.delivered, ?_, ?_, fun hlast => hsame (Nat.succ_inj.mp hlast)⟩
      · rw [List.take_succ_cons, List.flatten_cons, execAll_append _ h, hr,
          if_neg Bool.false_ne_true, hexec]
        rfl
      · exact congrArg (r.delivered ++ ·) hsent

end Next

/-- Without an exception all of them are called. -/
theorem Delivered.calls_eq {replies : List (List (ApiCall H))}
    (h : Delivered msg ls replies m r) (hr : r.raised = false) :
    r.delivered.map Delivery.call = ls.map fun l => (l, msg) := by
  rw [h.calls, h.all hr, List.take_length]

/-- Whatever the handlers do, the first listener is called. -/
theorem Delivered.ne_nil {l : PluginListener H} {replies : List (List (ApiCall H))}
    (h : Delivered msg (l :: ls) replies m r) : r.delivered ≠ [] := by
  intro hnil
  cases hraised : r.raised with
  | false =>
    have hall := h.all hraised
    rw [hnil] at hall
    cases hall
  | true =>
    -- no call has been made that could have raised the exception
    obtain ⟨r', hexec, -, hsame⟩ := h.sent 0 (Nat.zero_le _)
    rw [execAll_take_zero replies m] at hexec
    cases hexec
    have hfalse := (hsame (by rw [hnil, List.length_nil])).1
    exact absurd (hfalse.trans hraised) Bool.false_ne_true

/-- A message to one listener is delivered to it, whatever it does. -/
theorem Delivered.calls_singleton {l : PluginListener H} {replies : List (List (ApiCall H))}
    (h : Delivered msg [l] replies m r) : r.delivered.map Delivery.call = [(l, msg)] := by
  have hpos : 0 < r.delivered.length := List.length_pos_iff.mpr h.ne_nil
  rw [h.calls, List.take_of_length_le hpos]
  rfl

/-- A walk through listeners delivers the message to them. -/
theorem execReplies_delivered {sender : ℕ} {toAll : Bool} {msg : NVSEMessage}
    {replies : List (List (ApiCall H))} {ls : List (PluginListener H)} {m : PluginManager H}
    {r : Outcome H} (h : execReplies sender toAll msg replies ls m = .ok r) :
    Delivered msg ls replies m r := by
  -- on the replies, one for each handler: past them no handler makes a call
  induction replies generalizing ls m r with
  | nil =>
    rw [execReplies] at h
    cases h
    exact .of_nil msg ls m
  | cons cs replies ih =>
    cases ls with
    | nil =>
      rw [execReplies] at h
      cases h
      exact .of_nobody msg _ m
    | cons l ls =>
      rw [execReplies] at h
      split at h
      · cases h
      · rename_i r₁ hcs
        split at h
        · -- the handlers after this one are not called
          rename_i hraised
          cases h
          exact .of_raised l replies hcs hraised
        · rename_i hraised
          split at h
          · cases h
          · obtain ⟨r₂, hreplies, rfl⟩ := map_after_eq_ok h
            exact .cons l hcs (Bool.not_eq_true _ ▸ hraised) (ih hreplies)

/-- A list that is walked through to its end stays as it is. -/
theorem execReplies_listenersOf {sender : ℕ} {msg : NVSEMessage}
    {replies : List (List (ApiCall H))} {ls : List (PluginListener H)} {m : PluginManager H}
    {r : Outcome H} (h : execReplies sender true msg replies ls m = .ok r)
    (hr : r.raised = false) : r.manager.listenersOf sender = m.listenersOf sender := by
  induction replies generalizing ls m r with
  | nil =>
    rw [execReplies] at h
    cases h
    rfl
  | cons cs replies ih =>
    cases ls with
    | nil =>
      rw [execReplies] at h
      cases h
      rfl
    | cons l ls =>
      rw [execReplies] at h
      split at h
      · cases h
      · rename_i r₁ hcs
        split at h
        · cases h
          cases hr
        · split at h
          · cases h
          · rename_i hmoved
            obtain ⟨r₂, hreplies, rfl⟩ := map_after_eq_ok h
            -- a list only gets longer, and this one has not
            have hlonger := (execAll_rel PluginManager.kept_extends cs hcs).listenersOf sender
            have hlength : (m.listenersOf sender).length
                = (r₁.manager.listenersOf sender).length := by
              by_contra hne
              exact hmoved ⟨rfl, by simp [PluginManager.movedBy, Ne.symm hne]⟩
            exact (ih hreplies hr).trans (hlonger.eq_of_length hlength).symm

theorem execAll_singleton (c : ApiCall H) (m : PluginManager H) : execAll [c] m = exec c m := by
  rw [execAll]
  cases exec c m with
  | error e => rfl
  | ok r =>
    obtain ⟨raised, m', ds⟩ := r
    cases raised with
    | true => rfl
    | false =>
      have hnil : execAll [] m' = .ok ⟨false, m', []⟩ := by rw [execAll]
      change (execAll [] m').map (Outcome.after ds) = _
      rw [hnil]
      exact congrArg (fun ds => Except.ok (Outcome.mk false m' ds)) (List.append_nil ds)

section Dispatch

variable {sender : ℕ} {name : String} {messageType data dataLen : UInt32}
  {replies : List (List (ApiCall H))} {m : PluginManager H} {r : Outcome H}

/-- **Who hears a message to all.** Nobody twice and nobody in vain: it reaches the listeners of
the sender in their order, and all of them, unless a handler raises an exception, which
keeps it from those after. -/
theorem exec_dispatchMessage (hname : m.getPluginNameFromHandle sender = some name)
    (h : exec (.dispatchMessage sender messageType data dataLen none replies) m = .ok r) :
    Delivered ⟨name, messageType, data, dataLen⟩ (m.listenersOf sender) replies m r ∧
      (r.raised = false → r.manager.listenersOf sender = m.listenersOf sender) := by
  rw [exec] at h
  -- a sender's list is there once somebody has registered since it was loaded
  by_cases hlists : sender < m.pluginListeners.length
  · have hrecipients : m.recipients sender none = some (name, m.listenersOf sender) := by
      rw [PluginManager.recipients, if_pos hlists, hname, Option.map_some]
    rw [hrecipients] at h
    exact ⟨execReplies_delivered h, execReplies_listenersOf h⟩
  · -- without a list there are no listeners
    have hrecipients : m.recipients sender none = none := if_neg hlists
    have hnobody : m.listenersOf sender = [] := by
      rw [PluginManager.listenersOf, List.getD_eq_getElem?_getD,
        List.getElem?_eq_none (Nat.le_of_not_lt hlists), Option.getD_none]
    rw [hrecipients] at h
    cases h
    rw [hnobody]
    exact ⟨.of_nobody _ replies m, fun _ => rfl⟩

/-- **Who hears a message to one**: the receiver, if it is a listener of the sender. -/
theorem exec_dispatchMessage_some {receiver : String} {ls : List (PluginListener H)}
    (hrecipients : m.recipients sender (some receiver) = some (name, ls))
    (h : exec (.dispatchMessage sender messageType data dataLen (some receiver) replies) m
      = .ok r) :
    Delivered ⟨name, messageType, data, dataLen⟩ ls replies m r := by
  rw [exec, hrecipients] at h
  exact execReplies_delivered h

end Dispatch

end ApiCall

namespace PluginManager

/-! ### What a listener can rely on -/

/-- A handle that is found by name has the name. -/
theorem getPluginNameFromHandle_of_lookup {m : PluginManager H} {sender : String} {t : ℕ}
    (h : m.lookupHandleFromName sender = some t) :
    t ≤ m.plugins.length ∧
      ∃ name, m.getPluginNameFromHandle t = some name ∧ stricmp name sender = true := by
  unfold lookupHandleFromName lookupHandle at h
  -- the host by its own name, a plugin by that of its query
  split at h
  · rename_i hhost
    obtain rfl := Option.some.inj h
    exact ⟨Nat.zero_le _, "NVSE", rfl, hhost⟩
  · obtain ⟨i, hfind, rfl⟩ := Option.map_eq_some_iff.mp h
    obtain ⟨hi, htest, -⟩ := List.findIdx?_eq_some_iff_getElem.mp hfind
    obtain ⟨name, hname, hsame⟩ := (Option.any_eq_true _ _).mp htest
    refine ⟨hi, name, ?_, hsame⟩
    unfold getPluginNameFromHandle
    rw [if_pos ⟨Nat.succ_pos i, hi⟩, Nat.add_sub_cancel, List.getElem?_eq_getElem hi,
      Option.bind_some, hname]

/-- Names stay with their handles. -/
theorem Extends.getPluginNameFromHandle {m m' : PluginManager H} (h : m.Extends m') {t : ℕ}
    (ht : t ≤ m.plugins.length) :
    m'.getPluginNameFromHandle t = m.getPluginNameFromHandle t := by
  obtain ⟨rest, hrest⟩ := h.plugins
  unfold PluginManager.getPluginNameFromHandle
  -- the list of the plugins grows at its end only, and the host is on none
  by_cases hpos : 0 < t
  · have hle : t ≤ m'.plugins.length := by
      rw [← hrest, List.length_append]
      exact Nat.le_add_right_of_le ht
    rw [if_pos ⟨hpos, hle⟩, if_pos ⟨hpos, ht⟩, ← hrest, List.getElem?_append_left (by omega)]
  · obtain rfl : t = 0 := Nat.eq_zero_of_not_pos hpos
    rfl

/-- A listener that is on a list without repetitions is on it once. -/
theorem filter_eq_of_distinct {listener : ℕ} {h : H} {ls : List (PluginListener H)}
    (hls : (ls.map PluginListener.listener).Nodup) (hmem : ⟨listener, h⟩ ∈ ls) :
    ls.filter (fun l => l.listener == listener) = [⟨listener, h⟩] ∧
      ls.find? (fun l => l.listener == listener) = some ⟨listener, h⟩ := by
  induction ls with
  | nil => exact absurd hmem List.not_mem_nil
  | cons l ls ih =>
    rw [List.map_cons, List.nodup_cons] at hls
    -- at its place, nobody after it has its handle; before that, nobody has
    rcases List.mem_cons.mp hmem with rfl | hmem
    · have hrest : ls.filter (fun l => l.listener == listener) = [] := by
        rw [List.filter_eq_nil_iff]
        intro l hl hsame
        exact hls.1 (List.mem_map.mpr ⟨l, hl, beq_iff_eq.mp hsame⟩)
      simp [hrest]
    · have hne : l.listener ≠ listener := by
        intro hsame
        exact hls.1 (List.mem_map.mpr ⟨_, hmem, hsame.symm⟩)
      simpa [hne] using ih hls.2 hmem

/-- A registration that is accepted, for a sender with a name. -/
theorem registerListener_eq_true {m m₁ : PluginManager H} {listener : ℕ} {sender : String} {h : H}
    (hreg : m.registerListener listener (some sender) (some h) = (true, m₁)) :
    ∃ t h', m.lookupHandleFromName sender = some t ∧ ⟨listener, h'⟩ ∈ m₁.listenersOf t ∧
      (registered listener (m.listenersOf t) = false → h' = h) := by
  obtain ⟨n, hreserve, hn⟩ := reserve_eq m
  have hlookup : m.reserve.lookupHandleFromName sender = m.lookupHandleFromName sender := by
    rw [hreserve]
    rfl
  unfold registerListener at hreg
  simp only [hlookup] at hreg
  split at hreg
  · cases hreg
  · cases ht : m.lookupHandleFromName sender with
    | none =>
      rw [ht] at hreg
      cases hreg
    | some t =>
      rw [ht] at hreg
      cases hreg
      -- the list of the sender is there
      have hlt : t < m.reserve.pluginListeners.length := by
        have hle := (getPluginNameFromHandle_of_lookup ht).1
        rw [hreserve, List.length_append, List.length_replicate]
        unfold getNumPlugins at hn
        omega
      have hlist : PluginManager.listenersOf t { m.reserve with
          pluginListeners := m.reserve.pluginListeners.modify t (register listener h) }
          = register listener h (m.listenersOf t) := by
        rw [← listenersOf_reserve m t]
        simp [listenersOf, List.getD_eq_getElem?_getD, List.getElem?_eq_getElem hlt]
      refine ⟨t, ?_⟩
      rw [hlist]
      -- it is put on the list with its handler, or stays on it with the one it has
      cases hnew : registered listener (m.listenersOf t) with
      | false =>
        refine ⟨h, rfl, ?_, fun _ => rfl⟩
        rw [register, hnew]
        exact List.mem_append_right _ (List.mem_singleton.mpr rfl)
      | true =>
        obtain ⟨⟨l, h'⟩, hl, hsame⟩ := List.any_eq_true.mp hnew
        obtain rfl : l = listener := beq_iff_eq.mp hsame
        refine ⟨h', rfl, ?_, fun hfalse => Bool.noConfusion hfalse⟩
        rw [register, hnew]
        exact hl

/-- Whom messages reach of which a listener has been accepted: it is among the recipients of each
message of the sender to all, once, and the only one of each message to it alone. -/
theorem recipients_of_registered {m m₁ m₂ : PluginManager H} {listener : ℕ} {sender : String}
    {h : H} (hm : Reachable m)
    (hreg : m.registerListener listener (some sender) (some h) = (true, m₁))
    (hsteps : Relation.ReflTransGen Step m₁ m₂) :
    ∃ t name h', m.lookupHandleFromName sender = some t ∧ stricmp name sender = true ∧
      (registered listener (m.listenersOf t) = false → h' = h) ∧
      m₂.getPluginNameFromHandle t = some name ∧
      (m₂.listenersOf t).filter (fun l => l.listener == listener) = [⟨listener, h'⟩] ∧
      ∀ receiver, m₂.lookupHandleFromName receiver = some listener →
        m₂.recipients t (some receiver) = some (name, [⟨listener, h'⟩]) := by
  obtain ⟨t, h', ht, hmem, hfirst⟩ := registerListener_eq_true hreg
  obtain ⟨hle, name, hname, hsame⟩ := getPluginNameFromHandle_of_lookup ht
  have hm₁ : m.Extends m₁ := by
    have h := kept_extends.registerListener listener (some sender) (some h) m
    rwa [hreg] at h
  have hm₂ := extends_of_steps hsteps
  -- room for the list of the sender has been reserved when the listener was accepted
  have hlt : t < m₂.pluginListeners.length := by
    have hroom := (length_registerListener listener (some sender) (some h) m).1
    have hmono := hm₂.length_le
    rw [hreg] at hroom
    change m.getNumPlugins + 1 ≤ m₁.pluginListeners.length at hroom
    unfold getNumPlugins at hroom
    omega
  have hname₂ : m₂.getPluginNameFromHandle t = some name :=
    ((hm₁.trans hm₂).getPluginNameFromHandle hle).trans hname
  -- it is still on the list, and nobody is on a list twice
  obtain ⟨hfilter, hfind⟩ := filter_eq_of_distinct ((hm₁.trans hm₂).distinct hm.distinct t)
    ((hm₂.listenersOf t).subset hmem)
  refine ⟨t, name, h', ht, hsame, hfirst, hname₂, hfilter, ?_⟩
  intro receiver hreceiver
  rw [recipients, if_pos hlt]
  simp [hreceiver, hname₂, hfind]

/-- **What a listener can rely on.** Once it has been accepted as a listener to a sender,
whatever plugins call and whichever are loaded, each message of the sender to all calls it
exactly once, unless an exception keeps it from being called, and each message to it alone
calls it and nobody else. It is always the same handler: the one it gave, if it was not a
listener to the sender before. -/
theorem delivered_of_registered {m m₁ m₂ : PluginManager H} {listener : ℕ} {sender : String}
    {h : H} (hm : Reachable m)
    (hreg : m.registerListener listener (some sender) (some h) = (true, m₁))
    (hsteps : Relation.ReflTransGen Step m₁ m₂) :
    ∃ t name h', m.lookupHandleFromName sender = some t ∧ stricmp name sender = true ∧
      (registered listener (m.listenersOf t) = false → h' = h) ∧
      ∀ messageType data dataLen replies r,
        (ApiCall.exec (.dispatchMessage t messageType data dataLen none replies) m₂ = .ok r →
          (r.delivered.map Delivery.call).filter (fun p => p.1.listener == listener)
              <+: [(⟨listener, h'⟩, ⟨name, messageType, data, dataLen⟩)] ∧
            (r.raised = false →
              (r.delivered.map Delivery.call).filter (fun p => p.1.listener == listener)
                = [(⟨listener, h'⟩, ⟨name, messageType, data, dataLen⟩)])) ∧
        ∀ receiver, m₂.lookupHandleFromName receiver = some listener →
          ApiCall.exec (.dispatchMessage t messageType data dataLen (some receiver) replies) m₂
            = .ok r →
          r.delivered.map Delivery.call
            = [(⟨listener, h'⟩, ⟨name, messageType, data, dataLen⟩)] := by
  obtain ⟨t, name, h', ht, hsame, hfirst, hname, hfilter, hone⟩ :=
    recipients_of_registered hm hreg hsteps
  refine ⟨t, name, h', ht, hsame, hfirst, fun messageType data dataLen replies r => ⟨?_, ?_⟩⟩
  · intro hexec
    have hdelivered := (ApiCall.exec_dispatchMessage hname hexec).1
    -- of the calls that are made, those of the listener
    have hcalls : (r.delivered.map Delivery.call).filter (fun p => p.1.listener == listener)
        = (((m₂.listenersOf t).take r.delivered.length).filter
            fun l => l.listener == listener).map
          fun l => (l, ⟨name, messageType, data, dataLen⟩) := by
      rw [hdelivered.calls, List.filter_map]
      rfl
    constructor
    · -- the listeners that have been called are the first of the list
      have hfirsts := ((List.take_prefix r.delivered.length (m₂.listenersOf t)).filter
        fun l => l.listener == listener).map
          fun l => (l, (⟨name, messageType, data, dataLen⟩ : NVSEMessage))
      rwa [hfilter, ← hcalls] at hfirsts
    · intro hraised
      rw [hcalls, hdelivered.all hraised, List.take_length, hfilter]
      rfl
  · intro receiver hreceiver hexec
    exact (ApiCall.exec_dispatchMessage_some (hone receiver hreceiver) hexec).calls_singleton

/-! ### Listening to everyone -/

section RegisterAll

variable (listener : ℕ) (h : H)

theorem registered_append_self (ls : List (PluginListener H)) :
    registered listener (ls ++ [⟨listener, h⟩]) = true := by
  simp [registered]

/-- Past its own place, the loop reaches every list. -/
theorem registered_registerAll_of_lt {idx : ℕ} (hidx : listener < idx)
    {lists : List (List (PluginListener H))} {i : ℕ} (hi : i < lists.length) :
    registered listener ((registerAll listener h idx lists).getD i []) = true := by
  induction lists generalizing idx i with
  | nil => exact absurd hi (Nat.not_lt_zero i)
  | cons ls rest ih =>
    rw [registerAll, if_pos ⟨by omega, by omega⟩]
    cases hnew : registered listener ls with
    | true =>
      rw [if_pos rfl]
      cases i with
      | zero => exact hnew
      | succ i => exact ih hidx (Nat.lt_of_succ_lt_succ hi)
    | false =>
      rw [if_neg Bool.false_ne_true]
      cases i with
      | zero => exact registered_append_self listener h ls
      | succ i => exact ih (by omega) (Nat.lt_of_succ_lt_succ hi)

/-- Before its own place, too. -/
theorem registered_registerAll_of_add_lt {idx : ℕ} (hpos : 0 < idx)
    {lists : List (List (PluginListener H))} {i : ℕ} (hi : i < lists.length)
    (hidx : idx + i < listener) :
    registered listener ((registerAll listener h idx lists).getD i []) = true := by
  induction lists generalizing idx i with
  | nil => exact absurd hi (Nat.not_lt_zero i)
  | cons ls rest ih =>
    rw [registerAll, if_pos ⟨by omega, by omega⟩]
    cases hnew : registered listener ls with
    | true =>
      rw [if_pos rfl]
      cases i with
      | zero => exact hnew
      | succ i => exact ih hpos (Nat.lt_of_succ_lt_succ hi) (by omega)
    | false =>
      rw [if_neg Bool.false_ne_true]
      cases i with
      | zero => exact registered_append_self listener h ls
      | succ i => exact ih (by omega) (Nat.lt_of_succ_lt_succ hi) (by omega)

/-- Its own place is passed over, unless an earlier list has not been counted. -/
theorem registered_registerAll_self {idx p : ℕ} (hpos : 0 < idx) (hp : idx + p = listener)
    {lists : List (List (PluginListener H))} (hlt : p < lists.length) :
    registered listener ((registerAll listener h idx lists).getD p []) = true ↔
      ∃ j ≤ p, registered listener (lists.getD j []) = true := by
  induction lists generalizing idx p with
  | nil => exact absurd hlt (Nat.not_lt_zero p)
  | cons ls rest ih =>
    cases p with
    | zero =>
      rw [registerAll, if_neg fun hne => hne.2 hp]
      constructor
      · exact fun hreg => ⟨0, Nat.le_refl 0, hreg⟩
      · rintro ⟨j, hj, hreg⟩
        obtain rfl : j = 0 := Nat.le_zero.mp hj
        exact hreg
    | succ p =>
      have hrest : p < rest.length := Nat.lt_of_succ_lt_succ hlt
      rw [registerAll, if_pos ⟨by omega, by omega⟩]
      cases hnew : registered listener ls with
      | true =>
        rw [if_pos rfl]
        -- this list is not counted, so the loop is one behind when it gets to the listener's own
        refine iff_of_true ?_ ⟨0, Nat.zero_le _, hnew⟩
        exact registered_registerAll_of_add_lt listener h hpos hrest (by omega)
      | false =>
        rw [if_neg Bool.false_ne_true]
        -- a list that is counted leaves the question to the rest
        refine (ih (Nat.succ_pos idx) (by omega) hrest).trans ⟨?_, ?_⟩
        · rintro ⟨j, hj, hreg⟩
          exact ⟨j + 1, Nat.succ_le_succ hj, hreg⟩
        · rintro ⟨j, hj, hreg⟩
          cases j with
          | zero => exact absurd (hnew.symm.trans hreg) Bool.false_ne_true
          | succ j => exact ⟨j, Nat.le_of_succ_le_succ hj, hreg⟩

/-- The loop leaves out one list at most. -/
theorem exists_registered_registerAll {idx : ℕ} (hpos : 0 < idx)
    (lists : List (List (PluginListener H))) :
    ∃ p, ∀ i < lists.length, i ≠ p →
      registered listener ((registerAll listener h idx lists).getD i []) = true := by
  induction lists generalizing idx with
  | nil => exact ⟨0, fun i hi => absurd hi (Nat.not_lt_zero i)⟩
  | cons ls rest ih =>
    -- the one list is the first that the loop takes for the listener's own
    by_cases hown : idx = listener
    · refine ⟨0, fun i hi hne => ?_⟩
      obtain ⟨i, rfl⟩ : ∃ k, i = k + 1 := ⟨i - 1, by omega⟩
      rw [registerAll, if_neg fun hne => hne.2 hown]
      exact registered_registerAll_of_lt listener h (by omega) (Nat.lt_of_succ_lt_succ hi)
    · rw [registerAll, if_pos ⟨by omega, hown⟩]
      cases hnew : registered listener ls with
      | true =>
        rw [if_pos rfl]
        obtain ⟨p, hp⟩ := ih hpos
        refine ⟨p + 1, fun i hi hne => ?_⟩
        cases i with
        | zero => exact hnew
        | succ i => exact hp i (Nat.lt_of_succ_lt_succ hi) (by omega)
      | false =>
        rw [if_neg Bool.false_ne_true]
        obtain ⟨p, hp⟩ := ih (Nat.succ_pos idx)
        refine ⟨p + 1, fun i hi hne => ?_⟩
        cases i with
        | zero => exact registered_append_self listener h ls
        | succ i => exact hp i (Nat.lt_of_succ_lt_succ hi) (by omega)

end RegisterAll

/-- **A listener to everyone listens to itself** if and only if it has been on a list up to its
own before: the loop does not count such a list, and passes over a later one in its place.
It is left out of one list at most. -/
theorem registerListener_all {m m₁ : PluginManager H} {listener : ℕ} {h : H}
    (hpos : 0 < listener) (hreg : m.registerListener listener none (some h) = (true, m₁)) :
    (registered listener (m₁.listenersOf listener) = true ↔
        ∃ j, 0 < j ∧ j ≤ listener ∧ registered listener (m.listenersOf j) = true) ∧
      ∃ p, ∀ i, 0 < i → i ≤ m.getNumPlugins → i ≠ p →
        registered listener (m₁.listenersOf i) = true := by
  have hlists : ∀ i, m.listenersOf i = m.reserve.pluginListeners.getD i [] :=
    fun i => (listenersOf_reserve m i).symm
  have hroom : m.getNumPlugins + 1 ≤ m.reserve.pluginListeners.length := by
    obtain ⟨n, hreserve, hn⟩ := reserve_eq m
    rwa [hreserve, List.length_append, List.length_replicate]
  have hnum : m.reserve.getNumPlugins = m.getNumPlugins := by
    obtain ⟨n, hreserve, -⟩ := reserve_eq m
    rw [hreserve]
    rfl
  simp only [registerListener, hnum] at hreg
  split at hreg
  · cases hreg
  · rename_i hle
    cases hreg
    simp only [hlists]
    -- the list of the host is passed over, and counted
    obtain ⟨ls, rest, hcons⟩ : ∃ ls rest, m.reserve.pluginListeners = ls :: rest :=
      List.exists_cons_of_length_pos (by omega)
    have hafter : ∀ i, listenersOf (i + 1) { m.reserve with
        pluginListeners := registerAll listener h 0 m.reserve.pluginListeners }
          = (registerAll listener h 1 rest).getD i [] := by
      intro i
      rw [hcons]
      rfl
    rw [hcons, List.length_cons] at hroom
    obtain ⟨k, rfl⟩ : ∃ k, listener = k + 1 := ⟨listener - 1, by omega⟩
    -- what is left is the loop from list 1 on, with the handles one lower
    constructor
    · rw [hafter, registered_registerAll_self (k + 1) h Nat.one_pos (Nat.add_comm 1 k) (by omega)]
      constructor
      · rintro ⟨j, hj, hreg⟩
        exact ⟨j + 1, Nat.succ_pos j, Nat.succ_le_succ hj, by rwa [hcons]⟩
      · rintro ⟨j, hj, hjk, hreg⟩
        obtain ⟨j, rfl⟩ : ∃ k, j = k + 1 := ⟨j - 1, by omega⟩
        exact ⟨j, Nat.le_of_succ_le_succ hjk, by rwa [hcons] at hreg⟩
    · obtain ⟨p, hp⟩ := exists_registered_registerAll (k + 1) h Nat.one_pos rest
      refine ⟨p + 1, fun i hi hle' hne => ?_⟩
      obtain ⟨i, rfl⟩ : ∃ k, i = k + 1 := ⟨i - 1, by omega⟩
      rw [hafter]
      exact hp i (by omega) (by omega)

/-! ### Small managers -/

/-- A manager with one plugin. -/
def sampleManager : PluginManager Bool where
  plugins := [⟨⟨1, some "First", 1⟩, 0, "first.dll"⟩]
  currentLoadingPlugin := none
  currentPluginHandle := 0
  pluginListeners := []

theorem reachable_sampleManager : Reachable sampleManager := by
  have hstart := Relation.ReflTransGen.single (Step.start (empty Bool))
  have hquery := hstart.tail (.query ⟨1, some "First", 1⟩ rfl)
  have hinstall := hquery.tail (.install "first.dll" rfl rfl)
  have hfinish := hinstall.tail (.finish _)
  exact hfinish

/-- The plugin registers twice, with two handlers. It hears of the end of the loading, on which it
sends a message of its own that nobody hears, and it hears a message to it alone, on which it
fails. -/
theorem delivered_of_registered_sampleManager :
    let m₁ := (sampleManager.registerListener 1 (some "NVSE") (some true)).2
    let m₂ := (m₁.registerListener 1 (some "nvse") (some false)).2
    ∃ name r r', ApiCall.exec (.dispatchMessage 0 0 0 0 none [[.dispatchMessage 1 7 0 0 none []]])
        m₂ = .ok r ∧
      ApiCall.exec (.dispatchMessage 0 8 0 0 (some "FIRST") [[.fault]]) m₂ = .ok r' ∧
      (r.delivered.map Delivery.call).filter (fun p => p.1.listener == 1)
        = [(⟨1, true⟩, ⟨name, 0, 0, 0⟩)] ∧
      r'.delivered.map Delivery.call = [(⟨1, true⟩, ⟨name, 8, 0, 0⟩)] := by
  intro m₁ m₂
  have hstep : Step m₁ m₂ := .call (c := .registerListener 1 (some "nvse") (some false)) rfl
  obtain ⟨t, name, h', ht, -, hfirst, hdelivered⟩ :=
    delivered_of_registered reachable_sampleManager (by rfl :
      sampleManager.registerListener 1 (some "NVSE") (some true) = (true, m₁)) (.single hstep)
  obtain rfl : 0 = t := Option.some.inj (ht ▸ (by decide :
    some 0 = sampleManager.lookupHandleFromName "NVSE"))
  obtain rfl := hfirst rfl
  obtain ⟨r, hr, hraised⟩ : ∃ r, ApiCall.exec
      (.dispatchMessage 0 0 0 0 none [[.dispatchMessage 1 7 0 0 none []]]) m₂ = .ok r ∧
        r.raised = false := ⟨_, rfl, rfl⟩
  obtain ⟨r', hr'⟩ : ∃ r', ApiCall.exec (.dispatchMessage 0 8 0 0 (some "FIRST") [[.fault]]) m₂
      = .ok r' := ⟨_, rfl⟩
  exact ⟨name, r, r', hr, hr', ((hdelivered 0 0 0 _ r).1 hr).2 hraised,
    (hdelivered 8 0 0 _ r').2 "FIRST" (by decide) hr'⟩

/-- A manager with two plugins, of which the second listens to the first. -/
def samplePlugins : PluginManager Unit where
  plugins := [⟨⟨1, some "First", 1⟩, 0, "first.dll"⟩, ⟨⟨1, some "Second", 1⟩, 0, "second.dll"⟩]
  currentLoadingPlugin := none
  currentPluginHandle := 0
  pluginListeners := [[], [⟨2, ()⟩], []]

theorem registerListener_all_samplePlugins :
    registered 2 ((samplePlugins.registerListener 2 none (some ())).2.listenersOf 2) = true :=
  (registerListener_all (by decide) (by rfl : samplePlugins.registerListener 2 none (some ())
    = (true, (samplePlugins.registerListener 2 none (some ())).2))).1.mpr
      ⟨1, by decide, by decide, by decide⟩

end PluginManager

end RuntimeScriptProfiler
