import Mathlib.Data.List.Perm.Subperm
import RuntimeScriptProfiler.Framework.Passes
import RuntimeScriptProfiler.Host.Messages

/-!
# The installation of the plugins

The host goes through its plugin directory, again and again until a pass has installed
nothing: a plugin may bring others to light. Libraries, the directory and the rest of the
process are given by an `OS`, whose functions may depend on everything there is.

`installPlugin_ok` says once what becomes of one library. The loops are those of
`Framework/Passes`, whose rules lift what one library keeps to the whole installation and
bound the passes by the number of paths there may be. `installPlugins_ok` is the whole of
it, and `installPlugins_delivered` says who hears that it is over.
-/

namespace RuntimeScriptProfiler

open PluginManager

/-- `NVSEInterface`, as far as the plugin reads it. -/
structure NVSEInterface where
  nvseVersion : UInt32
  isEditor : UInt32

/-- What comes of calling a plugin: the calls it makes, what it returns if no exception stops it,
and the process it leaves. -/
structure Answer (W H : Type) where
  calls : List (ApiCall H)
  returned : Bool
  world : W

/-- A library with the functions it exports. A query also says who the plugin is. -/
structure Library (W H : Type) where
  query : Option (NVSEInterface → PluginManager H → W → Answer W H × PluginInfo)
  load : Option (NVSEInterface → PluginManager H → W → Answer W H)

/-- The system: its libraries, the plugin directory, and what the plugins do when they hear
that all have been loaded. -/
structure OS (W H : Type) where
  loadLibrary : String → W → Option (Library W H) × W
  freeLibrary : String → W → W
  findFiles : W → List String
  postLoad : PluginManager H → W → List (List (ApiCall H)) × W
  postPostLoad : PluginManager H → W → List (List (ApiCall H)) × W

/-- Who a library says it is, when it is queried. -/
def OS.queried (os : OS W H) (nvse : NVSEInterface) (pluginPath : String) (m : PluginManager H)
    (w : W) : Option PluginInfo :=
  let (lib, w) := os.loadLibrary pluginPath w
  (lib.bind Library.query).map fun query => (query nvse m.loading w).2

/-- A line about a plugin in the log of the host. -/
inductive InstallReport where
  | couldntLoad (pluginPath : String)
  | notPlugin (pluginPath : String)
  | checked (pluginPath : String) (info : PluginInfo) (loadStatus : String)

namespace InstallReport

/-- The plugin it is about. -/
def pluginPath : InstallReport → String
  | couldntLoad path => path
  | notPlugin path => path
  | checked path _ _ => path

/-- Does it say that the plugin has been installed? -/
def success : InstallReport → Bool
  | checked _ _ loadStatus => loadStatus == "loaded correctly"
  | _ => false

end InstallReport

/-- The host: its manager, the process, its log, and the messages that have been delivered. -/
structure Host (W H : Type) where
  manager : PluginManager H
  world : W
  log : List InstallReport
  delivered : Deliveries H

section Install

variable {W H : Type}

/-- The calls that a plugin makes. Do they end in an exception? -/
def Host.calls (a : Answer W H) (s : Host W H) : Except Abort (Bool × Host W H) :=
  match ApiCall.execAll a.calls s.manager with
  | .error e => .error e
  | .ok r => .ok (r.raised,
      { s with manager := r.manager, world := a.world, delivered := s.delivered ++ r.delivered })

/-- What is wrong with a plugin, if an exception came out of a call of it or it returned
`false`. -/
def safeCallStatus (raised returned : Bool) (fatal incompatible : String) : Option String :=
  if raised then some fatal else if returned then none else some incompatible

/-- `SafeCallQueryPlugin`. -/
def safeCallQueryPlugin (nvse : NVSEInterface)
    (query : NVSEInterface → PluginManager H → W → Answer W H × PluginInfo) (s : Host W H) :
    Except Abort (Option String × Host W H) :=
  let (a, info) := query nvse s.manager s.world
  match s.calls a with
  | .error e => .error e
  | .ok (raised, s) => .ok (
      safeCallStatus raised a.returned "disabled, fatal error occurred while querying plugin"
        "reported as incompatible during query",
      { s with manager := { s.manager with
        currentLoadingPlugin :=
          s.manager.currentLoadingPlugin.map fun p => { p with info := info } } })

/-- `SafeCallLoadPlugin`. -/
def safeCallLoadPlugin (nvse : NVSEInterface)
    (load : NVSEInterface → PluginManager H → W → Answer W H) (s : Host W H) :
    Except Abort (Option String × Host W H) :=
  let a := load nvse s.manager s.world
  match s.calls a with
  | .error e => .error e
  | .ok (raised, s) => .ok (
      safeCallStatus raised a.returned "disabled, fatal error occurred while loading plugin"
        "reported as incompatible during load", s)

/-- `CheckPluginCompatibility`. Its list of plugins that are known to be bad is empty. -/
def checkPluginCompatibility (m : PluginManager H) : Option String :=
  if m.currentLoadingPlugin.any fun p => p.info.name.isSome then none
  else some "disabled, no name specified"

/-- The checks that a plugin has to pass, with the complaint of the first that it does not. -/
def checkPlugin (nvse : NVSEInterface)
    (query : NVSEInterface → PluginManager H → W → Answer W H × PluginInfo)
    (load : NVSEInterface → PluginManager H → W → Answer W H) (s : Host W H) :
    Except Abort (Option String × Host W H) :=
  match safeCallQueryPlugin nvse query s with
  | .error e => .error e
  -- whatever the complaint has been
  | .ok (some _, s) => .ok (some "reported as incompatible during query", s)
  | .ok (none, s) =>
    match checkPluginCompatibility s.manager with
    | some loadStatus => .ok (some loadStatus, s)
    | none => safeCallLoadPlugin nvse load s

/-- `InstallPlugin`. -/
def installPlugin (os : OS W H) (nvse : NVSEInterface) (pluginPath : String) (s : Host W H) :
    Except Abort (Bool × Host W H) :=
  let s := { s with manager := s.manager.loading }
  match os.loadLibrary pluginPath s.world with
  | (none, w) => .ok (false, { s with world := w, log := s.log ++ [.couldntLoad pluginPath] })
  | (some lib, w) =>
    match lib.query, lib.load with
    | some query, some load =>
      match checkPlugin nvse query load { s with world := w } with
      | .error e => .error e
      | .ok (loadStatus, s) =>
        let plugin := s.manager.currentLoadingPlugin.getD unknownPlugin
        let s := { s with log := s.log
          ++ [InstallReport.checked pluginPath plugin.info (loadStatus.getD "loaded correctly")] }
        match loadStatus with
        | none => .ok (true, { s with manager := { s.manager with
            plugins := s.manager.plugins ++ [{ plugin with path := pluginPath }] } })
        | some _ => .ok (false, { s with world := os.freeLibrary pluginPath s.world })
    | _, _ =>
      .ok (false, { s with
        world := os.freeLibrary pluginPath w, log := s.log ++ [.notPlugin pluginPath] })

/-- The loop of `InstallPlugins` over the directory: the plugins found that are not installed
are, and counted if they could be. -/
def installPass (os : OS W H) (nvse : NVSEInterface) :
    List String → Host W H → Except Abort (ℕ × Host W H) :=
  Passes.pass (fun s pluginPath => (s.manager.lookupHandleFromPath pluginPath).isSome)
    (installPlugin os nvse)

/-- The passes of `InstallPlugins`, `none` if there are more than `fuel`. -/
def installLoop (os : OS W H) (nvse : NVSEInterface) :
    ℕ → Host W H → Option (Except Abort (Host W H)) :=
  Passes.passes (fun s pluginPath => (s.manager.lookupHandleFromPath pluginPath).isSome)
    (installPlugin os nvse) fun s => os.findFiles s.world

/-- A message of the host to all who listen to it. -/
def Host.dispatch (messageType : UInt32)
    (handlers : PluginManager H → W → List (List (ApiCall H)) × W) (s : Host W H) :
    Except Abort (Bool × Host W H) :=
  let (replies, w) := handlers s.manager s.world
  s.calls ⟨[.dispatchMessage 0 messageType 0 0 none replies], true, w⟩

/-- The end of `InstallPlugins`: the plugins hear that all have been loaded. -/
def finishInstall (os : OS W H) (s : Host W H) : Except Abort (Bool × Host W H) :=
  let s := { s with manager := s.manager.idle }
  -- `kMessage_PostLoad`
  match s.dispatch 0 os.postLoad with
  | .error e => .error e
  | .ok (true, s) => .ok (true, s)
  -- `kMessage_PostPostLoad`
  | .ok (false, s) => s.dispatch 9 os.postPostLoad

/-- `InstallPlugins`, and whether an exception came out of it. -/
def installPlugins (os : OS W H) (nvse : NVSEInterface) (fuel : ℕ) (s : Host W H) :
    Option (Except Abort (Bool × Host W H)) :=
  match installLoop os nvse fuel s with
  | none => none
  | some (.error e) => some (.error e)
  | some (.ok s) => some (finishInstall os s)

/-- The host after passes over the directory that have each installed something. -/
def Host.Passed (os : OS W H) (nvse : NVSEInterface) : Host W H → Host W H → Prop :=
  Relation.ReflTransGen fun s s' =>
    ∃ nFound, installPass os nvse (os.findFiles s.world) s = .ok (nFound + 1, s')

/-- The host before any plugin is loaded. -/
def Host.initial (H : Type) (w : W) : Host W H := ⟨.empty H, w, [], []⟩

/-! ### What becomes of one library -/

/-- What a call of the manager leaves alone. -/
structure CallFrame (m m' : PluginManager H) : Prop where
  plugins : m'.plugins = m.plugins
  handle : m'.currentPluginHandle = m.currentPluginHandle
  info : m'.currentLoadingPlugin.map LoadedPlugin.info
    = m.currentLoadingPlugin.map LoadedPlugin.info

theorem kept_callFrame : ApiCall.Kept (CallFrame (H := H)) where
  refl _ := ⟨rfl, rfl, rfl⟩
  trans h h' := ⟨h'.plugins.trans h.plugins, h'.handle.trans h.handle, h'.info.trans h.info⟩
  setOpcodeBase {opcode m m'} h := by
    obtain rfl | ⟨plugin, hplugin, rfl⟩ := setOpcodeBase_eq_some h
    · exact ⟨rfl, rfl, rfl⟩
    · exact ⟨rfl, rfl, by rw [hplugin]; rfl⟩
  registerListener listener sender handler m := by
    obtain ⟨hplugins, hloading, hhandle⟩ := registerListener_frame listener sender handler m
    exact ⟨hplugins, hhandle, congrArg _ hloading⟩

/-- Calls are steps of the manager. -/
theorem steps_of_execAll {cs : List (ApiCall H)} {m : PluginManager H} {r : Outcome H}
    (h : ApiCall.execAll cs m = .ok r) : Relation.ReflTransGen Step m r.manager := by
  induction cs generalizing m r with
  | nil =>
    rw [ApiCall.execAll] at h
    cases h
    exact .refl
  | cons c cs ih =>
    rw [ApiCall.execAll] at h
    split at h
    · cases h
    · rename_i r₁ hc
      -- the first call is a step, and so is each of the rest if it has raised nothing
      split at h
      · cases h
        exact .single (.call hc)
      · obtain ⟨r₂, hcs, rfl⟩ := ApiCall.map_after_eq_ok h
        exact (ih hcs).head (.call hc)

/-- The host after calls of a plugin that is being loaded. -/
structure Host.Quiet (s s' : Host W H) : Prop where
  steps : Relation.ReflTransGen Step s.manager s'.manager
  plugins : s'.manager.plugins = s.manager.plugins
  handle : s'.manager.currentPluginHandle = s.manager.currentPluginHandle
  log : s'.log = s.log

theorem Host.Quiet.trans {s s' s'' : Host W H} (h : s.Quiet s') (h' : s'.Quiet s'') :
    s.Quiet s'' :=
  ⟨h.steps.trans h'.steps, h'.plugins.trans h.plugins, h'.handle.trans h.handle,
    h'.log.trans h.log⟩

theorem Host.calls_ok {a : Answer W H} {s s' : Host W H} {raised : Bool}
    (h : s.calls a = .ok (raised, s')) :
    s.Quiet s' ∧ CallFrame s.manager s'.manager ∧ s'.world = a.world := by
  unfold Host.calls at h
  split at h
  · cases h
  · rename_i r hcalls
    cases h
    -- no tree of calls, however deep, changes more than one call does
    have hframe := ApiCall.execAll_rel kept_callFrame _ hcalls
    exact ⟨⟨steps_of_execAll hcalls, hframe.plugins, hframe.handle, rfl⟩, hframe, rfl⟩

theorem safeCallStatus_ne {raised returned : Bool} {fatal incompatible loadStatus : String}
    (hfatal : fatal ≠ loadStatus) (hincompatible : incompatible ≠ loadStatus) :
    safeCallStatus raised returned fatal incompatible ≠ some loadStatus := by
  unfold safeCallStatus
  -- an exception comes before what the plugin returns
  split
  · exact fun h => hfatal (Option.some.inj h)
  · split
    · nofun
    · exact fun h => hincompatible (Option.some.inj h)

theorem safeCallQueryPlugin_ok {nvse : NVSEInterface}
    {query : NVSEInterface → PluginManager H → W → Answer W H × PluginInfo} {s s' : Host W H}
    {loadStatus : Option String}
    (h : safeCallQueryPlugin nvse query s = .ok (loadStatus, s')) :
    s.Quiet s' ∧ s'.world = (query nvse s.manager s.world).1.world ∧
      ∀ plugin, s'.manager.currentLoadingPlugin = some plugin →
        plugin.info = (query nvse s.manager s.world).2 := by
  unfold safeCallQueryPlugin at h
  simp only at h
  split at h
  · cases h
  · rename_i raised s₁ hcalls
    obtain ⟨hquiet, -, hworld⟩ := Host.calls_ok hcalls
    cases h
    refine ⟨⟨hquiet.steps.trans ?_, hquiet.plugins, hquiet.handle, hquiet.log⟩, hworld, ?_⟩
    · -- the plugin says who it is
      cases hloading : s₁.manager.currentLoadingPlugin with
      | none =>
        have hsame : { s₁.manager with currentLoadingPlugin := none } = s₁.manager := by
          rw [← hloading]
        rw [Option.map_none, hsame]
      | some plugin => exact .single (.query _ hloading)
    · intro plugin hplugin
      -- what it says is kept, whatever its calls have recorded
      obtain ⟨plugin', -, rfl⟩ := Option.map_eq_some_iff.mp hplugin
      rfl

theorem safeCallLoadPlugin_ok {nvse : NVSEInterface}
    {load : NVSEInterface → PluginManager H → W → Answer W H} {s s' : Host W H}
    {loadStatus : Option String}
    (h : safeCallLoadPlugin nvse load s = .ok (loadStatus, s')) :
    s.Quiet s' ∧ CallFrame s.manager s'.manager ∧ s'.world = (load nvse s.manager s.world).world ∧
      loadStatus ≠ some "loaded correctly" := by
  unfold safeCallLoadPlugin at h
  simp only at h
  split at h
  · cases h
  · rename_i raised s₁ hcalls
    obtain ⟨hquiet, hframe, hworld⟩ := Host.calls_ok hcalls
    cases h
    exact ⟨hquiet, hframe, hworld, safeCallStatus_ne (by decide) (by decide)⟩

theorem checkPluginCompatibility_eq_none_iff {m : PluginManager H} :
    checkPluginCompatibility m = none ↔
      ∃ plugin, m.currentLoadingPlugin = some plugin ∧ plugin.info.name.isSome = true := by
  rw [← Option.any_eq_true, checkPluginCompatibility]
  split
  · exact iff_of_true rfl ‹_›
  · exact iff_of_false nofun ‹_›

/-- A plugin that passes its checks has a name, and is who it said it was. -/
theorem checkPlugin_ok {nvse : NVSEInterface}
    {query : NVSEInterface → PluginManager H → W → Answer W H × PluginInfo}
    {load : NVSEInterface → PluginManager H → W → Answer W H} {s s' : Host W H}
    {loadStatus : Option String}
    (h : checkPlugin nvse query load s = .ok (loadStatus, s')) :
    s.Quiet s' ∧ loadStatus ≠ some "loaded correctly" ∧
      (loadStatus = none → ∃ plugin, s'.manager.currentLoadingPlugin = some plugin ∧
        plugin.info.name.isSome = true ∧ plugin.info = (query nvse s.manager s.world).2) := by
  unfold checkPlugin at h
  split at h
  · cases h
  · rename_i s₁ hquery
    cases h
    exact ⟨(safeCallQueryPlugin_ok hquery).1, by decide, nofun⟩
  · rename_i s₁ hquery
    -- the query has been answered, and the name is looked at
    obtain ⟨hquiet, -, hsaid⟩ := safeCallQueryPlugin_ok hquery
    split at h
    · -- it has given no name
      rename_i status hstatus
      cases h
      unfold checkPluginCompatibility at hstatus
      split at hstatus
      · cases hstatus
      · cases hstatus
        exact ⟨hquiet, by decide, nofun⟩
    · rename_i hnamed
      obtain ⟨hload, hframe, -, hstatus⟩ := safeCallLoadPlugin_ok h
      refine ⟨hquiet.trans hload, hstatus, fun _ => ?_⟩
      obtain ⟨plugin, hplugin, hname⟩ := checkPluginCompatibility_eq_none_iff.mp hnamed
      -- its start does not change what it has said
      have hinfo := hframe.info
      rw [hplugin, Option.map_some] at hinfo
      obtain ⟨plugin', hplugin', hinfo'⟩ := Option.map_eq_some_iff.mp hinfo
      exact ⟨plugin', hplugin', hinfo' ▸ hname, hinfo'.trans (hsaid plugin hplugin)⟩

/-- A library that has been tried: what has been added to the log and to the plugins, and the
handle that the plugin was given. -/
structure Host.Tried (os : OS W H) (nvse : NVSEInterface) (pluginPath : String)
    (installed : Bool) (s s' : Host W H) : Prop where
  steps : Relation.ReflTransGen Step s.manager s'.manager
  handle : s'.manager.currentPluginHandle = s.manager.plugins.length + 1
  refused : installed = false → s'.manager.plugins = s.manager.plugins ∧
    ∃ r, s'.log = s.log ++ [r] ∧ r.pluginPath = pluginPath ∧ r.success = false
  accepted : installed = true → ∃ plugin, plugin.path = pluginPath ∧
    os.queried nvse pluginPath s.manager s.world = some plugin.info ∧
    s'.manager.plugins = s.manager.plugins ++ [plugin] ∧
    s'.log = s.log ++ [.checked pluginPath plugin.info "loaded correctly"]

/-- **What becomes of one library**: it is installed or it is not, and the log says which. -/
theorem installPlugin_ok {os : OS W H} {nvse : NVSEInterface} {pluginPath : String}
    {s s' : Host W H} {installed : Bool}
    (h : installPlugin os nvse pluginPath s = .ok (installed, s')) :
    s.Tried os nvse pluginPath installed s' := by
  have hstart := Relation.ReflTransGen.single (Step.start s.manager)
  unfold installPlugin at h
  simp only at h
  -- no library, one without its functions, one that is refused, one that is installed
  split at h
  · cases h
    exact ⟨hstart, rfl, fun _ => ⟨rfl, _, rfl, rfl, rfl⟩, nofun⟩
  · rename_i lib w hlib
    split at h
    · rename_i query load hquery hload
      split at h
      · cases h
      · rename_i loadStatus s₁ hcheck
        obtain ⟨hquiet, hstatus, hchecked⟩ := checkPlugin_ok hcheck
        cases loadStatus with
        | none =>
          -- it has passed: it goes on the list under its path, as the query has it
          obtain ⟨plugin, hplugin, hname, hsaid⟩ := hchecked rfl
          have hget : s₁.manager.currentLoadingPlugin.getD unknownPlugin = plugin := by
            rw [hplugin]
            rfl
          have hqueried : os.queried nvse pluginPath s.manager s.world = some plugin.info := by
            simp only [OS.queried, hlib, Option.bind_some, hquery, Option.map_some, hsaid]
          cases h
          simp only [hget, Option.getD_none]
          refine ⟨(hstart.trans hquiet.steps).tail (.install pluginPath hplugin hname),
            hquiet.handle, nofun,
            fun _ => ⟨{ plugin with path := pluginPath }, rfl, hqueried, ?_, ?_⟩⟩
          · rw [hquiet.plugins]
            rfl
          · rw [hquiet.log]
        | some status =>
          cases h
          -- refused: its handle is not taken back, but nothing is on the list
          refine ⟨hstart.trans hquiet.steps, hquiet.handle,
            fun _ => ⟨hquiet.plugins, _, by rw [hquiet.log], rfl, ?_⟩, nofun⟩
          exact beq_eq_false_iff_ne.mpr fun hloaded => hstatus (congrArg some hloaded)
    · -- one of its two functions is missing
      cases h
      exact ⟨hstart, rfl, fun _ => ⟨rfl, _, rfl, rfl, rfl⟩, nofun⟩

/-! ### The passes over the directory -/

/-- The paths of the plugins that the log says have been installed. -/
def installedPaths (log : List InstallReport) : List String :=
  (log.filter InstallReport.success).map InstallReport.pluginPath

/-- What holds between the passes: no path is installed twice, up to the case of letters, and the
log knows the plugins. -/
structure Host.Installed (s : Host W H) : Prop where
  reachable : Reachable s.manager
  distinct : s.manager.plugins.Pairwise fun p q => stricmp p.path q.path = false
  log : installedPaths s.log = s.manager.plugins.map LoadedPlugin.path

theorem stricmp_refl (path : String) : stricmp path path = true := beq_self_eq_true _

/-- A path is known if and only if it is empty or that of a plugin. -/
theorem lookupHandleFromPath_isSome_iff {path : String} {m : PluginManager H} :
    (m.lookupHandleFromPath path).isSome = true ↔
      stricmp "" path = true ∨ ∃ p ∈ m.plugins, stricmp p.path path = true := by
  unfold lookupHandleFromPath lookupHandle
  split
  · rename_i hempty
    exact iff_of_true rfl (Or.inl hempty)
  · rename_i hempty
    rw [Option.isSome_map, List.findIdx?_isSome, List.any_eq_true]
    exact (or_iff_right hempty).symm

/-- A path that is known stays known. -/
theorem lookupHandleFromPath_of_steps {path : String} {m m' : PluginManager H}
    (hsteps : Relation.ReflTransGen Step m m') (h : (m.lookupHandleFromPath path).isSome = true) :
    (m'.lookupHandleFromPath path).isSome = true := by
  rw [lookupHandleFromPath_isSome_iff] at h ⊢
  -- plugins stay on the list
  refine h.imp_right ?_
  rintro ⟨p, hp, hsame⟩
  exact ⟨p, (extends_of_steps hsteps).plugins.subset hp, hsame⟩

/-- A path that is not known is that of no plugin. -/
theorem stricmp_eq_false_of_lookup {path : String} {m : PluginManager H}
    (h : (m.lookupHandleFromPath path).isSome = false) :
    ∀ p ∈ m.plugins, stricmp p.path path = false := by
  intro p hp
  by_contra hsame
  have hknown : (m.lookupHandleFromPath path).isSome = true :=
    lookupHandleFromPath_isSome_iff.mpr (Or.inr ⟨p, hp, Bool.of_not_eq_false hsame⟩)
  rw [h] at hknown
  exact Bool.false_ne_true hknown

/-- Trying a library keeps what holds between the passes. -/
theorem Host.Installed.tried {os : OS W H} {nvse : NVSEInterface} {s s' : Host W H}
    (hs : s.Installed) {path : String} {installed : Bool}
    (hunknown : (s.manager.lookupHandleFromPath path).isSome = false)
    (h : s.Tried os nvse path installed s') : s'.Installed := by
  have hreachable := hs.reachable.trans h.steps
  -- a refusal is no success in the log, an installation is one
  cases installed with
  | false =>
    obtain ⟨hplugins, r, hlog, -, hr⟩ := h.refused rfl
    refine ⟨hreachable, hplugins ▸ hs.distinct, ?_⟩
    rw [hlog, hplugins, ← hs.log, installedPaths, installedPaths, List.filter_append,
      List.filter_cons_of_neg (Bool.not_eq_true _ ▸ hr), List.filter_nil, List.append_nil]
  | true =>
    obtain ⟨plugin, hpath, -, hplugins, hlog⟩ := h.accepted rfl
    refine ⟨hreachable, ?_, ?_⟩
    · rw [hplugins, List.pairwise_append]
      -- its path was not known, so no plugin before it has the same
      refine ⟨hs.distinct, List.pairwise_singleton _ _, ?_⟩
      intro p hp q hq
      rw [List.mem_singleton.mp hq, hpath]
      exact stricmp_eq_false_of_lookup hunknown p hp
    · rw [hlog, hplugins, installedPaths, List.filter_append, List.map_append, List.map_append,
        List.filter_cons_of_pos (by rfl), List.filter_nil, List.map_singleton, List.map_singleton,
        hpath, ← hs.log, installedPaths]
      rfl

theorem installed_initial (w : W) : (Host.initial H w).Installed :=
  ⟨.refl, List.Pairwise.nil, rfl⟩

/-- Trying a library that is not known keeps what holds between the passes. -/
theorem installed_of_installPlugin {os : OS W H} {nvse : NVSEInterface} {path : String}
    {installed : Bool} {s s' : Host W H} (hs : s.Installed)
    (hunknown : (s.manager.lookupHandleFromPath path).isSome = false)
    (h : installPlugin os nvse path s = .ok (installed, s')) : s'.Installed :=
  hs.tried hunknown (installPlugin_ok h)

/-- What becomes of the paths of a list, tried one after the other. -/
structure Host.Pass (paths : List String) (nFound : ℕ) (s s' : Host W H) : Prop where
  steps : Relation.ReflTransGen Step s.manager s'.manager
  nFound : s'.manager.plugins.length = s.manager.plugins.length + nFound
  plugins : ∀ p ∈ s'.manager.plugins, p ∈ s.manager.plugins ∨ p.path ∈ paths
  tried : ∃ log, s'.log = s.log ++ log ∧ ∀ path ∈ paths,
    (s'.manager.lookupHandleFromPath path).isSome = true ∨
      ∃ r ∈ log, r.pluginPath = path ∧ r.success = false

/-- A path that is known already. -/
theorem Host.Pass.skip {s s' : Host W H} {path : String} {paths : List String} {nFound : ℕ}
    (hknown : (s.manager.lookupHandleFromPath path).isSome = true) (h : s.Pass paths nFound s') :
    s.Pass (path :: paths) nFound s' := by
  obtain ⟨log, hlog, htried⟩ := h.tried
  refine ⟨h.steps, h.nFound, fun p hp => ?_, log, hlog, List.forall_mem_cons.mpr ⟨?_, htried⟩⟩
  · exact (h.plugins p hp).imp_right (List.mem_cons_of_mem path)
  · exact Or.inl (lookupHandleFromPath_of_steps h.steps hknown)

/-- A library that is tried before the others. -/
theorem Host.Pass.cons {os : OS W H} {nvse : NVSEInterface} {s s₁ s' : Host W H} {path : String}
    {paths : List String} {installed : Bool} {nFound : ℕ}
    (h₁ : s.Tried os nvse path installed s₁) (h : s₁.Pass paths nFound s') :
    s.Pass (path :: paths) (nFound + installed.toNat) s' := by
  obtain ⟨log, hlog, htried⟩ := h.tried
  -- what the log has of the other paths it still has behind one more line
  have htried' : ∀ r, ∀ path' ∈ paths, (s'.manager.lookupHandleFromPath path').isSome = true ∨
      ∃ r' ∈ r :: log, r'.pluginPath = path' ∧ r'.success = false := by
    intro r path' hpath'
    refine (htried path' hpath').imp_right ?_
    rintro ⟨r', hr', hrest⟩
    exact ⟨r', List.mem_cons_of_mem r hr', hrest⟩
  cases installed with
  | false =>
    obtain ⟨hplugins, r, hr, hpath, hsuccess⟩ := h₁.refused rfl
    refine ⟨h₁.steps.trans h.steps, ?_, fun p hp => ?_, r :: log, ?_,
      List.forall_mem_cons.mpr ⟨Or.inr ⟨r, List.mem_cons_self, hpath, hsuccess⟩, htried' r⟩⟩
    · rw [h.nFound, hplugins]
      rfl
    · rw [← hplugins]
      exact (h.plugins p hp).imp_right (List.mem_cons_of_mem path)
    · rw [hlog, hr, List.append_assoc, List.singleton_append]
  | true =>
    obtain ⟨plugin, hpath, -, hplugins, hr⟩ := h₁.accepted rfl
    refine ⟨h₁.steps.trans h.steps, ?_, fun p hp => ?_,
      .checked path plugin.info "loaded correctly" :: log, ?_,
      List.forall_mem_cons.mpr ⟨Or.inl ?_, htried' _⟩⟩
    · rw [h.nFound, hplugins, List.length_append, List.length_singleton, Bool.toNat_true]
      omega
    · rcases h.plugins p hp with hold | hnew
      · rw [hplugins] at hold
        rcases List.mem_append.mp hold with hold | hlast
        · exact Or.inl hold
        · rw [List.mem_singleton.mp hlast, hpath]
          exact Or.inr List.mem_cons_self
      · exact Or.inr (List.mem_cons_of_mem path hnew)
    · rw [hlog, hr, List.append_assoc, List.singleton_append]
    · refine lookupHandleFromPath_of_steps h.steps (lookupHandleFromPath_isSome_iff.mpr ?_)
      -- it is known by its own path, then and after the others
      refine Or.inr ⟨plugin, ?_, hpath ▸ stricmp_refl plugin.path⟩
      rw [hplugins]
      exact List.mem_append_right _ List.mem_cons_self

/-- The paths of a list, tried one after the other, installed or not. -/
theorem installPass_ok {os : OS W H} {nvse : NVSEInterface} {paths : List String} {s s' : Host W H}
    {nFound : ℕ} (h : installPass os nvse paths s = .ok (nFound, s')) :
    s.Pass paths nFound s' := by
  refine Passes.pass_rule (R := Host.Pass) ?_ ?_ ?_ h
  -- no path left; one that is known already; one that is tried
  · intro s
    exact ⟨.refl, rfl, fun p hp => Or.inl hp, [], (List.append_nil _).symm, nofun⟩
  · intro path paths nFound s s' hknown hrest
    exact hrest.skip hknown
  · intro path paths installed nFound s s₁ s' _ hinstall hrest
    exact .cons (installPlugin_ok hinstall) hrest

/-! ### The whole installation -/

/-- No more plugins than paths. -/
theorem Host.Installed.length_le {s : Host W H} (h : s.Installed) {paths : List String}
    (hpaths : ∀ p ∈ s.manager.plugins, p.path ∈ paths) :
    s.manager.plugins.length ≤ paths.length := by
  -- as many different lower-case paths as there are plugins, all of them in the list
  have hnodup : (s.manager.plugins.map fun p => p.path.toList.map Char.toLower).Nodup := by
    refine List.pairwise_map.mpr (h.distinct.imp ?_)
    intro p q hne hsame
    exact absurd (beq_iff_eq.mpr hsame) (Bool.eq_false_iff.mp hne)
  have hsubset : (s.manager.plugins.map fun p => p.path.toList.map Char.toLower)
      ⊆ paths.map fun path => path.toList.map Char.toLower := by
    intro x hx
    obtain ⟨p, hp, rfl⟩ := List.mem_map.mp hx
    exact List.mem_map.mpr ⟨p.path, hpaths p hp, rfl⟩
  have hle := (List.subperm_of_subset hnodup hsubset).length_le
  rwa [List.length_map, List.length_map] at hle

/-- The passes come to an end: each but the last installs a plugin, and there are no more plugins
than paths. -/
theorem installLoop_isSome {os : OS W H} {nvse : NVSEInterface} {paths : List String}
    (hfiles : ∀ w, os.findFiles w ⊆ paths) {fuel : ℕ} {s : Host W H} (hs : s.Installed)
    (hpaths : ∀ p ∈ s.manager.plugins, p.path ∈ paths)
    (hfuel : paths.length < s.manager.plugins.length + fuel) :
    (installLoop os nvse fuel s).isSome = true := by
  -- the number of plugins grows by what a pass has found, and cannot pass that of the paths
  refine Passes.passes_isSome
    (P := fun s => s.Installed ∧ ∀ p ∈ s.manager.plugins, p.path ∈ paths) ?_
    (fun h => h.1.length_le h.2) ⟨hs, hpaths⟩ hfuel
  rintro nFound s s' ⟨hs, hpaths⟩ hpass
  have h := installPass_ok hpass
  refine ⟨⟨Passes.pass_keeps installed_of_installPlugin hs hpass, fun p hp => ?_⟩, h.nFound⟩
  exact (h.plugins p hp).elim (hpaths p) fun hpath => hfiles s.world hpath

theorem Host.dispatch_ok {messageType : UInt32}
    {handlers : PluginManager H → W → List (List (ApiCall H)) × W} {s s' : Host W H}
    {raised : Bool} (h : s.dispatch messageType handlers = .ok (raised, s')) :
    s.Quiet s' ∧ s'.world = (handlers s.manager s.world).2 := by
  obtain ⟨hquiet, -, hworld⟩ := Host.calls_ok h
  exact ⟨hquiet, hworld⟩

/-- The end of the installation installs nothing. -/
theorem finishInstall_ok {os : OS W H} {s s' : Host W H} {raised : Bool}
    (h : finishInstall os s = .ok (raised, s')) :
    Relation.ReflTransGen Step s.manager s'.manager ∧ s'.manager.plugins = s.manager.plugins ∧
      s'.log = s.log := by
  have hfinish := Relation.ReflTransGen.single (Step.finish s.manager)
  -- one message or two: the second is not sent after an exception
  unfold finishInstall at h
  simp only at h
  split at h
  · cases h
  · rename_i s₁ hpostLoad
    cases h
    obtain ⟨hquiet, -⟩ := Host.dispatch_ok hpostLoad
    exact ⟨hfinish.trans hquiet.steps, hquiet.plugins, hquiet.log⟩
  · rename_i s₁ hpostLoad
    obtain ⟨hquiet₁, -⟩ := Host.dispatch_ok hpostLoad
    obtain ⟨hquiet₂, -⟩ := Host.dispatch_ok h
    have hquiet := hquiet₁.trans hquiet₂
    exact ⟨hfinish.trans hquiet.steps, hquiet.plugins, hquiet.log⟩

/-- An installation that has come to its end. -/
theorem installPlugins_eq_some {os : OS W H} {nvse : NVSEInterface} {fuel : ℕ} {s s' : Host W H}
    {raised : Bool} (h : installPlugins os nvse fuel s = some (.ok (raised, s'))) :
    ∃ s₁, installLoop os nvse fuel s = some (.ok s₁) ∧ finishInstall os s₁ = .ok (raised, s') := by
  unfold installPlugins at h
  split at h
  · cases h
  · cases h
  · rename_i s₁ hloop
    exact ⟨s₁, hloop, Option.some.inj h⟩

/-- The loop has ended with a pass that installed nothing. -/
theorem installLoop_eq_some {os : OS W H} {nvse : NVSEInterface} {fuel : ℕ} {s s' : Host W H}
    (h : installLoop os nvse fuel s = some (.ok s')) :
    ∃ s₀, Host.Passed os nvse s s₀ ∧
      installPass os nvse (os.findFiles s₀.world) s₀ = .ok (0, s') :=
  Passes.passes_eq_some h

/-- **The installation.** With one pass more than there are paths it comes to an end. Unless it
is undefined, the manager has only made its steps, the plugins have paths that differ in
more than case, and the log has one success for each of them. The passes have each installed
something, up to a last one that has not, and every path that the last found in the
directory is installed or has been refused. -/
theorem installPlugins_ok {os : OS W H} (nvse : NVSEInterface) {paths : List String}
    (hfiles : ∀ w, os.findFiles w ⊆ paths) (w : W) :
    ∃ r, installPlugins os nvse (paths.length + 1) (Host.initial H w) = some r ∧
      ∀ raised s, r = .ok (raised, s) → Reachable s.manager ∧
        s.manager.plugins.Pairwise (fun p q => stricmp p.path q.path = false) ∧
        installedPaths s.log = s.manager.plugins.map LoadedPlugin.path ∧
        ∃ s₀ s₁, Host.Passed os nvse (Host.initial H w) s₀ ∧
          installPass os nvse (os.findFiles s₀.world) s₀ = .ok (0, s₁) ∧
          finishInstall os s₁ = .ok (raised, s) ∧
          ∀ path ∈ os.findFiles s₀.world, (s.manager.lookupHandleFromPath path).isSome = true ∨
            ∃ r ∈ s.log, r.pluginPath = path ∧ r.success = false := by
  have hloop : (installLoop os nvse (paths.length + 1) (Host.initial H w)).isSome = true :=
    installLoop_isSome hfiles (installed_initial w) nofun (Nat.lt_add_left _ (Nat.lt_succ_self _))
  obtain ⟨r, hr⟩ : ∃ r, installPlugins os nvse (paths.length + 1) (Host.initial H w) = some r := by
    obtain ⟨r, hr⟩ := Option.isSome_iff_exists.mp hloop
    -- once the passes have ended, the messages after them do too
    cases r with
    | error e => exact ⟨.error e, by rw [installPlugins, hr]⟩
    | ok s => exact ⟨finishInstall os s, by rw [installPlugins, hr]⟩
  refine ⟨r, hr, ?_⟩
  rintro raised s rfl
  -- the passes, of which the last installs nothing, and the messages after them
  obtain ⟨s₁, hloop, hfinish⟩ := installPlugins_eq_some hr
  obtain ⟨s₀, hpassed, hlast⟩ := installLoop_eq_some hloop
  obtain ⟨hsteps, hplugins, hlog⟩ := finishInstall_ok hfinish
  -- what holds between the passes holds before the last and after it
  have hs₀ : s₀.Installed :=
    Passes.productive_keeps installed_of_installPlugin (installed_initial w) hpassed
  have hs₁ : s₁.Installed := Passes.pass_keeps installed_of_installPlugin hs₀ hlast
  refine ⟨hs₁.reachable.trans hsteps, ?_, ?_, s₀, s₁, hpassed, hlast, hfinish, ?_⟩
  · rw [hplugins]
    exact hs₁.distinct
  · rw [hlog, hplugins]
    exact hs₁.log
  · intro path hpath
    obtain ⟨log, hnew, htried⟩ := (installPass_ok hlast).tried
    refine (htried path hpath).imp (lookupHandleFromPath_of_steps hsteps) ?_
    rintro ⟨r, hr, hrest⟩
    -- the messages at the end take nothing off the list or out of the log
    refine ⟨r, ?_, hrest⟩
    rw [hlog, hnew]
    exact List.mem_append_right _ hr

/-- Two libraries, which both listen to the host, but the second refuses. It is found in the
directory when the first has been started. Of the end of the loading the first tells itself. -/
def sampleSystem : OS Bool Bool where
  loadLibrary path w := (some {
    query := some fun _ m w =>
      (⟨[.registerListener m.currentPluginHandle (some "NVSE") (some (path == "first.dll"))],
        path == "first.dll", w⟩, ⟨1, some path, 1⟩)
    load := some fun _ _ _ => ⟨[], true, true⟩ }, w)
  freeLibrary _ w := w
  findFiles started := if started then ["first.dll", "second.dll"] else ["first.dll"]
  postLoad _ w := ([[.dispatchMessage 0 7 0 0 (some "first.dll") []]], w)
  postPostLoad _ w := ([], w)

theorem exists_installPlugins_sampleSystem :
    ∃ s, installPlugins sampleSystem ⟨5, 0⟩ 3 (Host.initial Bool false) = some (.ok (false, s)) ∧
      installedPaths s.log = ["first.dll"] ∧
      (s.manager.listenersOf 0).map PluginListener.listener = [1, 2] := by
  have hrun : (installPlugins sampleSystem ⟨5, 0⟩ 3 (Host.initial Bool false)).map
      (fun r => r.toOption.map fun p => (p.1, installedPaths p.2.log,
        (p.2.manager.listenersOf 0).map PluginListener.listener))
        = some (some (false, ["first.dll"], [1, 2])) := by
    decide +kernel
  obtain ⟨r, hr, h⟩ := Option.map_eq_some_iff.mp hrun
  cases r with
  | error e => exact nomatch h
  | ok r =>
    obtain ⟨raised, s⟩ := r
    obtain ⟨rfl, h⟩ := Prod.mk.inj (Option.some.inj h)
    exact ⟨s, hr, Prod.mk.inj h⟩

theorem installPlugins_ok_sampleSystem :
    ∃ s, installPlugins sampleSystem ⟨5, 0⟩ 3 (Host.initial Bool false) = some (.ok (false, s)) ∧
      Reachable s.manager ∧ s.manager.plugins.map LoadedPlugin.path = ["first.dll"] ∧
      ∃ s₀ s₁, Host.Passed sampleSystem ⟨5, 0⟩ (Host.initial Bool false) s₀ ∧
        installPass sampleSystem ⟨5, 0⟩ (sampleSystem.findFiles s₀.world) s₀ = .ok (0, s₁) ∧
        finishInstall sampleSystem s₁ = .ok (false, s) := by
  have hfiles : ∀ started, sampleSystem.findFiles started ⊆ ["first.dll", "second.dll"] := by
    intro started
    cases started <;> decide
  obtain ⟨s, hs, hpaths, -⟩ := exists_installPlugins_sampleSystem
  obtain ⟨r, hr, h⟩ := installPlugins_ok (H := Bool) ⟨5, 0⟩ hfiles false
  obtain ⟨hreachable, -, hlog, s₀, s₁, hpassed, hlast, hfinish, -⟩ :=
    h false s (Option.some.inj (hr.symm.trans hs))
  exact ⟨s, hs, hreachable, hlog.symm.trans hpaths, s₀, s₁, hpassed, hlast, hfinish⟩

/-- A message of the host, and what it leaves. -/
theorem Host.dispatch_delivered {messageType : UInt32}
    {handlers : PluginManager H → W → List (List (ApiCall H)) × W} {s s' : Host W H}
    {raised : Bool} (h : s.dispatch messageType handlers = .ok (raised, s')) :
    ∃ ds, s'.delivered = s.delivered ++ ds ∧
      ApiCall.Delivered ⟨"NVSE", messageType, 0, 0⟩ (s.manager.listenersOf 0)
        (handlers s.manager s.world).1 s.manager ⟨raised, s'.manager, ds⟩ ∧
      (raised = false → s'.manager.listenersOf 0 = s.manager.listenersOf 0) := by
  unfold Host.dispatch Host.calls at h
  simp only [ApiCall.execAll_singleton] at h
  cases hexec : ApiCall.exec
      (.dispatchMessage 0 messageType 0 0 none (handlers s.manager s.world).1) s.manager with
  | error e =>
    rw [hexec] at h
    cases h
  | ok r =>
    rw [hexec] at h
    cases h
    obtain ⟨hdelivered, hsame⟩ := ApiCall.exec_dispatchMessage rfl hexec
    exact ⟨r.delivered, rfl, hdelivered, hsame⟩

/-- **Everyone hears the end of the loading.** After an installation that no exception has
broken off, the last messages are those of the host: each plugin that listens to it has been
told once that all are loaded, and once again after that, in the order of registration.
What has been delivered in between is what the handlers themselves have sent. -/
theorem installPlugins_delivered {os : OS W H} {nvse : NVSEInterface} {fuel : ℕ} {w : W}
    {s : Host W H} (h : installPlugins os nvse fuel (Host.initial H w) = some (.ok (false, s))) :
    ((s.manager.listenersOf 0).map PluginListener.listener).Nodup ∧
      ∃ (s₀ s₁ : Host W H) (ds₀ ds₉ : Deliveries H),
        installLoop os nvse fuel (Host.initial H w) = some (.ok s₀) ∧
        s.delivered = s₀.delivered ++ ds₀ ++ ds₉ ∧
        ds₀.map Delivery.call = (s.manager.listenersOf 0).map (·, ⟨"NVSE", 0, 0, 0⟩) ∧
        ds₉.map Delivery.call = (s.manager.listenersOf 0).map (·, ⟨"NVSE", 9, 0, 0⟩) ∧
        ApiCall.Delivered ⟨"NVSE", 0, 0, 0⟩ (s.manager.listenersOf 0)
          (os.postLoad s₀.manager.idle s₀.world).1 s₀.manager.idle ⟨false, s₁.manager, ds₀⟩ ∧
        ApiCall.Delivered ⟨"NVSE", 9, 0, 0⟩ (s.manager.listenersOf 0)
          (os.postPostLoad s₁.manager s₁.world).1 s₁.manager ⟨false, s.manager, ds₉⟩ := by
  obtain ⟨s₀, hloop, hfinish⟩ := installPlugins_eq_some h
  have hs₀ : s₀.Installed :=
    (Passes.passes_keeps installed_of_installPlugin (installed_initial w) hloop).1
  have hreachable : Reachable s.manager := hs₀.reachable.trans (finishInstall_ok hfinish).1
  refine ⟨hreachable.distinct 0, s₀, ?_⟩
  unfold finishInstall at hfinish
  simp only at hfinish
  -- no exception has come out of the first message, and none out of the second
  split at hfinish
  · cases hfinish
  · cases hfinish
  · rename_i s₁ hpostLoad
    obtain ⟨ds₀, hds₀, hdelivered₀, hsame₀⟩ := Host.dispatch_delivered hpostLoad
    obtain ⟨ds₉, hds₉, hdelivered₉, hsame₉⟩ := Host.dispatch_delivered hfinish
    -- nobody has begun to listen meanwhile
    rw [← hsame₉ rfl] at hdelivered₉
    rw [← hsame₀ rfl, ← hsame₉ rfl] at hdelivered₀
    refine ⟨s₁, ds₀, ds₉, hloop, ?_, ?_, ?_, hdelivered₀, hdelivered₉⟩
    · rw [hds₉, hds₀]
    · exact hdelivered₀.calls_eq rfl
    · exact hdelivered₉.calls_eq rfl

/-- Both listeners hear both messages, and the first hears itself in between. -/
theorem installPlugins_delivered_sampleSystem :
    ∃ (s s₀ : Host Bool Bool) (ds₀ ds₉ : Deliveries Bool),
      installPlugins sampleSystem ⟨5, 0⟩ 3 (Host.initial Bool false) = some (.ok (false, s)) ∧
      (s.manager.listenersOf 0).map PluginListener.listener = [1, 2] ∧
      s.delivered = s₀.delivered ++ ds₀ ++ ds₉ ∧
      ds₀.map (fun d => d.call.1.listener) = [1, 2] ∧
      ds₉.map (fun d => d.call.1.listener) = [1, 2] := by
  obtain ⟨s, hs, -, hlisteners⟩ := exists_installPlugins_sampleSystem
  obtain ⟨-, s₀, s₁, ds₀, ds₉, -, hdelivered, hcalls₀, hcalls₉, -⟩ := installPlugins_delivered hs
  have hheard : ∀ {ds : Deliveries Bool} {msg : NVSEMessage},
      ds.map Delivery.call = (s.manager.listenersOf 0).map (·, msg) →
      ds.map (fun d => d.call.1.listener) = [1, 2] := by
    intro ds msg hcalls
    have h := congrArg (List.map fun p => p.1.listener) hcalls
    rw [List.map_map, List.map_map] at h
    exact h.trans hlisteners
  exact ⟨s, s₀, ds₀, ds₉, hs, hlisteners, hdelivered, hheard hcalls₀, hheard hcalls₉⟩

/-- **Handles stay.** The handle that a plugin has been given while it was loaded is its own
for good, whatever is called and loaded after it: the manager finds under it who the plugin
said it was when it was queried. -/
theorem getInfoFromHandle_of_installPlugin {os : OS W H} {nvse : NVSEInterface}
    {pluginPath : String} {s s' : Host W H} {m : PluginManager H}
    (h : installPlugin os nvse pluginPath s = .ok (true, s'))
    (hsteps : Relation.ReflTransGen Step s'.manager m) :
    ∃ info, os.queried nvse pluginPath s.manager s.world = some info ∧
      s'.manager.currentPluginHandle = s.manager.loading.currentPluginHandle ∧
      m.getInfoFromHandle s.manager.loading.currentPluginHandle = some info ∧
      s'.log = s.log ++ [.checked pluginPath info "loaded correctly"] := by
  have htried := installPlugin_ok h
  obtain ⟨plugin, -, hqueried, hplugins, hlog⟩ := htried.accepted rfl
  obtain ⟨rest, hrest⟩ := (extends_of_steps hsteps).plugins
  refine ⟨plugin.info, hqueried, htried.handle, ?_, hlog⟩
  -- it has been put at the end of the list, and what follows is put behind it
  change m.getInfoFromHandle (s.manager.plugins.length + 1) = _
  rw [getInfoFromHandle, ← hrest, hplugins, List.append_assoc]
  simp

/-- After the first library the second is tried, which makes a call and is refused. -/
theorem getInfoFromHandle_of_installPlugin_sampleSystem :
    ∃ s s' : Host Bool Bool,
      installPlugin sampleSystem ⟨5, 0⟩ "first.dll" (Host.initial Bool false) = .ok (true, s) ∧
      installPlugin sampleSystem ⟨5, 0⟩ "second.dll" s = .ok (false, s') ∧
      s'.manager.getInfoFromHandle 1 = some ⟨1, some "first.dll", 1⟩ := by
  obtain ⟨s, s', hfirst, hsecond⟩ : ∃ s s' : Host Bool Bool,
      installPlugin sampleSystem ⟨5, 0⟩ "first.dll" (Host.initial Bool false) = .ok (true, s) ∧
        installPlugin sampleSystem ⟨5, 0⟩ "second.dll" s = .ok (false, s') :=
    ⟨_, _, rfl, rfl⟩
  obtain ⟨info, hqueried, -, hinfo, -⟩ :=
    getInfoFromHandle_of_installPlugin hfirst (installPlugin_ok hsecond).steps
  obtain rfl : ⟨1, some "first.dll", 1⟩ = info := Option.some.inj hqueried
  exact ⟨s, s', hfirst, hsecond, hinfo⟩

/-- **What a refused plugin leaves behind.** A handler under its handle is for good that of the
plugin which is installed next: no call puts another in its place. -/
theorem listenersOf_of_refused {os : OS W H} {nvse : NVSEInterface} {path path' : String}
    {s s₁ s₁' s₂ : Host W H} {m : PluginManager H} {t : ℕ} {handler : H}
    (hm : Reachable s.manager) (hrefused : installPlugin os nvse path s = .ok (false, s₁))
    (hreg : ⟨s₁.manager.currentPluginHandle, handler⟩ ∈ s₁.manager.listenersOf t)
    (hbetween : Relation.ReflTransGen Step s₁.manager s₁'.manager)
    (hplugins : s₁'.manager.plugins = s₁.manager.plugins)
    (hinstall : installPlugin os nvse path' s₁' = .ok (true, s₂))
    (hsteps : Relation.ReflTransGen Step s₂.manager m) :
    s₂.manager.currentPluginHandle = s₁.manager.currentPluginHandle ∧
      (m.listenersOf t).filter (fun l => l.listener == s₁.manager.currentPluginHandle)
        = [⟨s₁.manager.currentPluginHandle, handler⟩] := by
  have hfirst := installPlugin_ok hrefused
  have hnext := installPlugin_ok hinstall
  have hextends := extends_of_steps ((hbetween.trans hnext.steps).trans hsteps)
  have hreachable : Reachable s₁.manager := hm.trans hfirst.steps
  have hdistinct := hextends.distinct hreachable.distinct t
  constructor
  · -- the handle is one more than there are plugins, and the refusal has added none
    rw [hnext.handle, hfirst.handle, hplugins, (hfirst.refused rfl).1]
  · -- its list keeps it, and has nobody else under the handle
    exact (filter_eq_of_distinct hdistinct ((hextends.listenersOf t).subset hreg)).1

theorem listenersOf_of_refused_sampleSystem :
    ∃ s₁ s₂ : Host Bool Bool,
      installPlugin sampleSystem ⟨5, 0⟩ "second.dll" (Host.initial Bool false) = .ok (false, s₁) ∧
      installPlugin sampleSystem ⟨5, 0⟩ "first.dll" s₁ = .ok (true, s₂) ∧
      (s₂.manager.listenersOf 0).filter (fun l => l.listener == s₁.manager.currentPluginHandle)
        = [⟨s₁.manager.currentPluginHandle, false⟩] := by
  obtain ⟨s₁, s₂, hrefused, hreg, hinstall⟩ : ∃ s₁ s₂ : Host Bool Bool,
      installPlugin sampleSystem ⟨5, 0⟩ "second.dll" (Host.initial Bool false) = .ok (false, s₁) ∧
        ⟨s₁.manager.currentPluginHandle, false⟩ ∈ s₁.manager.listenersOf 0 ∧
        installPlugin sampleSystem ⟨5, 0⟩ "first.dll" s₁ = .ok (true, s₂) :=
    ⟨_, _, rfl, List.mem_singleton.mpr rfl, rfl⟩
  have h := listenersOf_of_refused (installed_initial false).reachable hrefused hreg .refl rfl
    hinstall .refl
  exact ⟨s₁, s₂, hrefused, hinstall, h.2⟩

end Install

end RuntimeScriptProfiler
