import RuntimeScriptProfiler.Profiler.Process
import RuntimeScriptProfiler.Host.Install

/-!
# The profiler among the plugins

`NVSEPlugin_Query` and `NVSEPlugin_Load` as a library that the host installs. What the
other plugins do is open, but for the profiler's own part of the process (`view`), which
is the profiler's alone (`ProfilerAmong`).

`installPlugins_profiler` says what a whole installation makes of that part. In the game
the library is loaded and started once, however many passes there are; in the editor it is
loaded and freed once a pass, and never started. The version of the host makes no
difference: the query compares a packed version with one that is not.
-/

namespace RuntimeScriptProfiler

open PluginManager

/-! ### The version of the host -/

/-- `MAKE_NEW_VEGAS_VERSION_EX`. -/
def makeNewVegasVersionEx (major minor build sub : UInt32) : UInt32 :=
  ((major &&& 0xFF) <<< 24) ||| ((minor &&& 0xFF) <<< 16) ||| ((build &&& 0xFFF) <<< 4)
    ||| (sub &&& 0xF)

/-- `MAKE_NEW_VEGAS_VERSION`. -/
def makeNewVegasVersion (major minor build : UInt32) : UInt32 :=
  makeNewVegasVersionEx major minor build 0

/-- `NVSE_VERSION_INTEGER`. -/
def nvseVersionInteger : UInt32 := 5

/-- `NVSE_VERSION_INTEGER_MINOR`. -/
def nvseVersionIntegerMinor : UInt32 := 1

/-- `NVSE_VERSION_INTEGER_BETA`. -/
def nvseVersionIntegerBeta : UInt32 := 4

/-- `PACKED_NVSE_VERSION`. -/
def packedNVSEVersion : UInt32 :=
  makeNewVegasVersion nvseVersionInteger nvseVersionIntegerMinor nvseVersionIntegerBeta

/-- `g_NVSEInterface`, in the game. -/
def gNVSEInterface : NVSEInterface where
  nvseVersion := packedNVSEVersion
  isEditor := 0

/-- `NVSEPlugin_Query`. -/
def nvsePluginQuery (nvse : NVSEInterface) : PluginInfo × Bool :=
  (⟨1, some "RuntimeProfiler", 1⟩,
    !(decide (nvse.nvseVersion < nvseVersionInteger) || nvse.isEditor != 0))

/-- The library of the profiler, `load` being what `NVSEPlugin_Load` does to the process. -/
def profilerLibrary {W : Type} (H : Type) (load : W → W) : Library W H where
  query := some fun nvse _ w => (⟨[], (nvsePluginQuery nvse).2, w⟩, (nvsePluginQuery nvse).1)
  load := some fun _ _ w => ⟨[], true, load w⟩

/-- A shift by four bits or more leaves the last four empty. -/
theorem toNat_shiftLeft_mod (x n : UInt32) (hle : 4 ≤ n.toNat) (hlt : n.toNat < 32) :
    (x <<< n).toNat % 2 ^ 4 = 0 := by
  obtain ⟨k, hk⟩ : ∃ k, n.toNat = 4 + k := ⟨n.toNat - 4, by omega⟩
  rw [UInt32.toNat_shiftLeft, Nat.mod_eq_of_lt hlt, hk, Nat.shiftLeft_eq, Nat.pow_add,
    Nat.mul_left_comm]
  omega

/-- A version is packed into the other bits. -/
theorem toNat_makeNewVegasVersion_mod (major minor build : UInt32) :
    (makeNewVegasVersion major minor build).toNat % 2 ^ 4 = 0 := by
  rw [makeNewVegasVersion, makeNewVegasVersionEx]
  simp only [UInt32.toNat_or, Nat.or_mod_two_pow]
  rw [toNat_shiftLeft_mod _ 24 (by decide) (by decide),
    toNat_shiftLeft_mod _ 16 (by decide) (by decide),
    toNat_shiftLeft_mod _ 4 (by decide) (by decide)]
  rfl

/-- So no packed version but 0 is below the one that is asked for. -/
theorem nvsePluginQuery_packed {major minor build : UInt32}
    (hversion : makeNewVegasVersion major minor build ≠ 0) (isEditor : UInt32) :
    (nvsePluginQuery ⟨makeNewVegasVersion major minor build, isEditor⟩).2 = true
      ↔ isEditor = 0 := by
  have hmod := toNat_makeNewVegasVersion_mod major minor build
  have hpos : (makeNewVegasVersion major minor build).toNat ≠ 0 :=
    fun hzero => hversion (UInt32.toNat_inj.mp hzero)
  have hle : ¬makeNewVegasVersion major minor build < nvseVersionInteger := by
    rw [UInt32.lt_iff_toNat_lt]
    change ¬(makeNewVegasVersion major minor build).toNat < 5
    omega
  simp [nvsePluginQuery, hle]

/-! ### Among other plugins -/

section Among

variable {W H V : Type}

/-- A library that leaves a part of the process alone. -/
structure Library.Keeps (view : W → V) (lib : Library W H) : Prop where
  query : ∀ query ∈ lib.query, ∀ nvse m w, view (query nvse m w).1.world = view w
  load : ∀ load ∈ lib.load, ∀ nvse m w, view (load nvse m w).world = view w

/-- The profiler among other plugins: its library is found, and nothing else touches its part
of the process, which `attach`, `detach` and `start` change when the library is loaded, when
it is freed and when it is started. -/
structure ProfilerAmong (os : OS W H) (profilerPath : String) (load : W → W) (view : W → V)
    (attach detach start : V → V) : Prop where
  path : stricmp "" profilerPath = false
  found : ∀ w, profilerPath ∈ os.findFiles w
  library : ∀ path w, stricmp path profilerPath = true →
    (os.loadLibrary path w).1 = some (profilerLibrary H load)
  attach : ∀ path w, stricmp path profilerPath = true →
    view (os.loadLibrary path w).2 = attach (view w)
  detach : ∀ path w, stricmp path profilerPath = true →
    view (os.freeLibrary path w) = detach (view w)
  start : ∀ w, view (load w) = start (view w)
  loadLibrary : ∀ path w, stricmp path profilerPath = false →
    view (os.loadLibrary path w).2 = view w
  freeLibrary : ∀ path w, stricmp path profilerPath = false →
    view (os.freeLibrary path w) = view w
  others : ∀ path w, stricmp path profilerPath = false →
    ∀ lib ∈ (os.loadLibrary path w).1, lib.Keeps view
  postLoad : ∀ m w, view (os.postLoad m w).2 = view w
  postPostLoad : ∀ m w, view (os.postPostLoad m w).2 = view w

/-- A plugin that leaves a part of the process alone is checked. -/
theorem Library.Keeps.checkPlugin {view : W → V} {lib : Library W H} (hlib : lib.Keeps view)
    {nvse : NVSEInterface} {query : NVSEInterface → PluginManager H → W → Answer W H × PluginInfo}
    {load : NVSEInterface → PluginManager H → W → Answer W H} {s s' : Host W H}
    {loadStatus : Option String} (hquery : lib.query = some query) (hload : lib.load = some load)
    (h : checkPlugin nvse query load s = .ok (loadStatus, s')) : view s'.world = view s.world := by
  -- its query is made in any case, its load function if the query has been passed
  have hkept : ∀ {loadStatus s₁}, safeCallQueryPlugin nvse query s = .ok (loadStatus, s₁) →
      view s₁.world = view s.world := by
    intro loadStatus s₁ hs₁
    rw [(safeCallQueryPlugin_ok hs₁).2.1]
    exact hlib.query query hquery nvse s.manager s.world
  unfold RuntimeScriptProfiler.checkPlugin at h
  split at h
  · cases h
  · rename_i s₁ hs₁
    cases h
    exact hkept hs₁
  · rename_i s₁ hs₁
    split at h
    · cases h
      exact hkept hs₁
    · rw [(safeCallLoadPlugin_ok h).2.2.1, hlib.load load hload nvse s₁.manager s₁.world]
      exact hkept hs₁

variable {os : OS W H} {profilerPath : String} {load : W → W} {view : W → V}
  {attach detach start : V → V}

/-- Another plugin is tried. -/
theorem ProfilerAmong.installPlugin_other
    (h : ProfilerAmong os profilerPath load view attach detach start) {nvse : NVSEInterface}
    {path : String} (hpath : stricmp path profilerPath = false) {s s' : Host W H}
    {installed : Bool} (hinstall : installPlugin os nvse path s = .ok (installed, s')) :
    view s'.world = view s.world := by
  -- loading it, checking it and freeing it each leave the part alone
  have hloaded := h.loadLibrary path s.world hpath
  unfold installPlugin at hinstall
  simp only at hinstall
  split at hinstall
  · rename_i w hlib
    cases hinstall
    rwa [hlib] at hloaded
  · rename_i lib w hlib
    have hkeeps := h.others path s.world hpath lib (by rw [hlib]; rfl)
    rw [hlib] at hloaded
    split at hinstall
    · rename_i query load' hquery hload
      split at hinstall
      · cases hinstall
      · rename_i loadStatus s₁ hcheck
        have hchecked := (hkeeps.checkPlugin hquery hload hcheck).trans hloaded
        cases loadStatus with
        | none =>
          cases hinstall
          exact hchecked
        | some status =>
          cases hinstall
          exact (h.freeLibrary path s₁.world hpath).trans hchecked
    · cases hinstall
      exact (h.freeLibrary path w hpath).trans hloaded

/-- The checks of the profiler: all that counts is its own query. -/
theorem checkPlugin_profilerLibrary (load : W → W) (nvse : NVSEInterface) {s : Host W H}
    {plugin : LoadedPlugin} (hloading : s.manager.currentLoadingPlugin = some plugin) :
    ∃ loadStatus s', checkPlugin nvse
        (fun nvse _ w => (⟨[], (nvsePluginQuery nvse).2, w⟩, (nvsePluginQuery nvse).1))
        (fun _ _ w => ⟨[], true, load w⟩) s = .ok (loadStatus, s') ∧
      loadStatus.isNone = (nvsePluginQuery nvse).2 ∧
      s'.world = if (nvsePluginQuery nvse).2 then load s.world else s.world := by
  obtain ⟨⟨plugins, loading, handle, listeners⟩, w, log, delivered⟩ := s
  obtain rfl : loading = some plugin := hloading
  change ∃ loadStatus s', checkPlugin nvse
    (fun _ _ w => (⟨[], (nvsePluginQuery nvse).2, w⟩, ⟨1, some "RuntimeProfiler", 1⟩)) _ _ = _ ∧ _
  -- it makes no calls, and gives a name, so that only its own answer decides
  generalize (nvsePluginQuery nvse).2 = accepted
  cases accepted with
  | true => exact ⟨_, _, rfl, rfl, rfl⟩
  | false => exact ⟨_, _, rfl, rfl, rfl⟩

/-- The profiler is tried. -/
theorem ProfilerAmong.installPlugin_self
    (h : ProfilerAmong os profilerPath load view attach detach start) {nvse : NVSEInterface}
    {path : String} (hpath : stricmp path profilerPath = true) {s s' : Host W H}
    {installed : Bool} (hinstall : installPlugin os nvse path s = .ok (installed, s')) :
    installed = (nvsePluginQuery nvse).2 ∧ view s'.world
      = if installed then start (attach (view s.world)) else detach (attach (view s.world)) := by
  obtain ⟨w, hlib⟩ : ∃ w, os.loadLibrary path s.world = (some (profilerLibrary H load), w) :=
    ⟨_, Prod.ext (h.library path s.world hpath) rfl⟩
  have hattach := h.attach path s.world hpath
  rw [hlib] at hattach
  obtain ⟨loadStatus, s₁, hcheck, hstatus, hworld⟩ := checkPlugin_profilerLibrary load nvse
    (s := { s with world := w, manager := s.manager.loading }) rfl
  simp only [installPlugin, hlib, profilerLibrary, hcheck] at hinstall
  -- accepted it has been started, refused it is freed again
  rw [← hstatus] at hworld ⊢
  cases loadStatus with
  | none =>
    cases hinstall
    refine ⟨rfl, ?_⟩
    rw [if_pos rfl, ← hattach, ← h.start, hworld]
    rfl
  | some status =>
    cases hinstall
    refine ⟨rfl, ?_⟩
    rw [if_neg Bool.false_ne_true, ← hattach, h.detach path s₁.world hpath, hworld]
    rfl

/-! ### A whole installation -/

/-- Is a plugin the profiler, by its path? -/
def isProfiler (profilerPath : String) (plugin : LoadedPlugin) : Prop :=
  stricmp plugin.path profilerPath = true

theorem stricmp_congr {s t u : String} (h : stricmp t u = true) : stricmp s t = stricmp s u := by
  rw [stricmp, stricmp, beq_iff_eq.mp h]

/-- In the game: the profiler has been started if and only if it is installed, and it has never been
refused. -/
structure Host.Game (profilerPath : String) (view : W → V) (v started : V) (s : Host W H) :
    Prop where
  installed : s.Installed
  accepted : ∀ r ∈ s.log, stricmp r.pluginPath profilerPath = true → r.success = true
  started : (∃ p ∈ s.manager.plugins, isProfiler profilerPath p) → view s.world = started
  waiting : (¬∃ p ∈ s.manager.plugins, isProfiler profilerPath p) → view s.world = v

/-- In the editor: the profiler is not installed, and has been loaded and freed again. -/
structure Host.Editor (profilerPath : String) (view : W → V) (v : V) (attempt : V → V)
    (s : Host W H) : Prop where
  refused : ¬∃ p ∈ s.manager.plugins, isProfiler profilerPath p
  attempts : ∃ n, view s.world = attempt^[n] v

/-- The log and the plugins after a library has been tried. -/
theorem Host.Tried.mem {os : OS W H} {nvse : NVSEInterface} {path : String} {installed : Bool}
    {s s' : Host W H} (h : s.Tried os nvse path installed s') :
    (∃ r, s'.log = s.log ++ [r] ∧ r.pluginPath = path ∧ r.success = installed) ∧
      ∀ profilerPath, (∃ p ∈ s'.manager.plugins, isProfiler profilerPath p) ↔
        (∃ p ∈ s.manager.plugins, isProfiler profilerPath p) ∨
          installed = true ∧ stricmp path profilerPath = true := by
  cases installed with
  | false =>
    obtain ⟨hplugins, hlog⟩ := h.refused rfl
    exact ⟨hlog, fun profilerPath => by rw [hplugins]; simp⟩
  | true =>
    obtain ⟨plugin, rfl, -, hplugins, hlog⟩ := h.accepted rfl
    refine ⟨⟨_, hlog, rfl, by rfl⟩, fun profilerPath => ?_⟩
    rw [hplugins]
    simp [or_and_right, exists_or, isProfiler]

/-- What a library does that is tried in the game. -/
theorem Host.Game.step (h : ProfilerAmong os profilerPath load view attach detach start) {v : V}
    {nvse : NVSEInterface} (hquery : (nvsePluginQuery nvse).2 = true) {path : String}
    {installed : Bool} {s s' : Host W H} (hs : s.Game profilerPath view v (start (attach v)))
    (hunknown : (s.manager.lookupHandleFromPath path).isSome = false)
    (hinstall : installPlugin os nvse path s = .ok (installed, s')) :
    s'.Game profilerPath view v (start (attach v)) := by
  have htried := installPlugin_ok hinstall
  obtain ⟨⟨r, hlog, hr, hsuccess⟩, hplugins⟩ := htried.mem
  have hinstalled := hs.installed.tried hunknown htried
  cases hpath : stricmp path profilerPath with
  | true =>
    obtain ⟨haccepted, hview⟩ := h.installPlugin_self hpath hinstall
    obtain rfl : installed = true := haccepted.trans hquery
    -- it has not been there before
    have hnew : ¬∃ p ∈ s.manager.plugins, isProfiler profilerPath p := by
      rintro ⟨p, hp, hself⟩
      have hother := stricmp_eq_false_of_lookup hunknown p hp
      rw [stricmp_congr hpath] at hother
      exact Bool.false_ne_true (hother.symm.trans hself)
    -- the new line of the log is a success, and the start has found what the library has set up
    refine ⟨hinstalled, fun r' hr' hself => ?_, fun _ => ?_, fun hnot => ?_⟩
    · rw [hlog] at hr'
      rcases List.mem_append.mp hr' with hold | hlast
      · exact hs.accepted r' hold hself
      · rw [List.mem_singleton.mp hlast]
        exact hsuccess
    · rw [hview, if_pos rfl, hs.waiting hnew]
    · exact absurd ((hplugins profilerPath).mpr (Or.inr ⟨rfl, hpath⟩)) hnot
  | false =>
    -- another plugin: neither the part nor whether the profiler is there has changed
    have hview := h.installPlugin_other hpath hinstall
    have hsame : (∃ p ∈ s'.manager.plugins, isProfiler profilerPath p)
        ↔ ∃ p ∈ s.manager.plugins, isProfiler profilerPath p := by
      rw [hplugins profilerPath, hpath]
      simp
    refine ⟨hinstalled, fun r' hr' hself => ?_, fun hthere => ?_, fun hnot => ?_⟩
    · rw [hlog] at hr'
      rcases List.mem_append.mp hr' with hold | hlast
      · exact hs.accepted r' hold hself
      · rw [List.mem_singleton.mp hlast, hr, hpath] at hself
        cases hself
    · rw [hview, hs.started (hsame.mp hthere)]
    · rw [hview, hs.waiting fun hthere => hnot (hsame.mpr hthere)]

/-- What a library does that is tried in the editor. -/
theorem Host.Editor.step (h : ProfilerAmong os profilerPath load view attach detach start) {v : V}
    {nvse : NVSEInterface} (hquery : (nvsePluginQuery nvse).2 = false) {path : String}
    {installed : Bool} {s s' : Host W H} (hs : s.Editor profilerPath view v (detach ∘ attach))
    (hinstall : installPlugin os nvse path s = .ok (installed, s')) :
    s'.Editor profilerPath view v (detach ∘ attach) := by
  obtain ⟨-, hplugins⟩ := (installPlugin_ok hinstall).mem
  obtain ⟨n, hn⟩ := hs.attempts
  cases hpath : stricmp path profilerPath with
  | true =>
    obtain ⟨haccepted, hview⟩ := h.installPlugin_self hpath hinstall
    obtain rfl : installed = false := haccepted.trans hquery
    -- one more attempt
    refine ⟨fun hthere => ?_, n + 1, ?_⟩
    · rcases (hplugins profilerPath).mp hthere with hold | ⟨hfalse, -⟩
      · exact hs.refused hold
      · cases hfalse
    · rw [hview, if_neg Bool.false_ne_true, hn, Function.iterate_succ_apply']
      rfl
  | false =>
    -- another plugin, of which there may be more on the list now
    refine ⟨fun hthere => ?_, n, (h.installPlugin_other hpath hinstall).trans hn⟩
    rcases (hplugins profilerPath).mp hthere with hold | ⟨-, hself⟩
    · exact hs.refused hold
    · rw [hpath] at hself
      cases hself

/-- The messages at the end leave the profiler's part alone. -/
theorem ProfilerAmong.finishInstall
    (h : ProfilerAmong os profilerPath load view attach detach start) {s s' : Host W H}
    {raised : Bool} (hfinish : finishInstall os s = .ok (raised, s')) :
    view s'.world = view s.world := by
  unfold RuntimeScriptProfiler.finishInstall at hfinish
  simp only at hfinish
  split at hfinish
  · cases hfinish
  · rename_i s₁ hpostLoad
    cases hfinish
    rw [(Host.dispatch_ok hpostLoad).2]
    exact h.postLoad _ _
  · rename_i s₁ hpostLoad
    rw [(Host.dispatch_ok hfinish).2, h.postPostLoad, (Host.dispatch_ok hpostLoad).2]
    exact h.postLoad _ _

/-- A host that the profiler accepts loads and starts it once. -/
theorem ProfilerAmong.game (h : ProfilerAmong os profilerPath load view attach detach start)
    {nvse : NVSEInterface} (hquery : (nvsePluginQuery nvse).2 = true) {fuel : ℕ} {w : W}
    {raised : Bool} {s : Host W H}
    (hrun : installPlugins os nvse fuel (Host.initial H w) = some (.ok (raised, s))) :
    (∃ p ∈ s.manager.plugins, isProfiler profilerPath p) ∧
      view s.world = start (attach (view w)) := by
  obtain ⟨s₁, hloop, hfinish⟩ := installPlugins_eq_some hrun
  have hstart : (Host.initial H w).Game profilerPath view (view w) (start (attach (view w))) := by
    refine ⟨installed_initial w, nofun, ?_, fun _ => rfl⟩
    rintro ⟨p, hp, -⟩
    exact absurd hp List.not_mem_nil
  -- what holds of each library tried holds of the whole loop
  obtain ⟨hend, s₀, -, hlast⟩ := Passes.passes_keeps
    (fun hs hunknown hinstall => hs.step h hquery hunknown hinstall) hstart hloop
  -- the last pass has found it
  have hthere : ∃ p ∈ s₁.manager.plugins, isProfiler profilerPath p := by
    obtain ⟨log, hlog, htried⟩ := (installPass_ok hlast).tried
    -- it is known then, or has been refused, which the log has never seen
    rcases htried profilerPath (h.found s₀.world) with hknown | ⟨r, hr, hpath, hsuccess⟩
    · rcases lookupHandleFromPath_isSome_iff.mp hknown with hempty | hthere
      · exact absurd (hempty.symm.trans h.path) Bool.noConfusion
      · exact hthere
    · have haccepted := hend.accepted r (by rw [hlog]; exact List.mem_append_right _ hr)
        (by rw [hpath]; exact stricmp_refl profilerPath)
      exact absurd (haccepted.symm.trans hsuccess) Bool.noConfusion
  rw [(finishInstall_ok hfinish).2.1]
  exact ⟨hthere, (h.finishInstall hfinish).trans (hend.started hthere)⟩

/-- A host that it does not accept loads and frees it some times. -/
theorem ProfilerAmong.editor (h : ProfilerAmong os profilerPath load view attach detach start)
    {nvse : NVSEInterface} (hquery : (nvsePluginQuery nvse).2 = false) {fuel : ℕ} {w : W}
    {raised : Bool} {s : Host W H}
    (hrun : installPlugins os nvse fuel (Host.initial H w) = some (.ok (raised, s))) :
    (¬∃ p ∈ s.manager.plugins, isProfiler profilerPath p) ∧
      ∃ n, view s.world = (detach ∘ attach)^[n] (view w) := by
  obtain ⟨s₁, hloop, hfinish⟩ := installPlugins_eq_some hrun
  have hstart : (Host.initial H w).Editor profilerPath view (view w) (detach ∘ attach) := by
    refine ⟨?_, 0, rfl⟩
    rintro ⟨p, hp, -⟩
    exact absurd hp List.not_mem_nil
  obtain ⟨hend, -⟩ := Passes.passes_keeps
    (fun hs _ hinstall => hs.step h hquery hinstall) hstart hloop
  obtain ⟨n, hn⟩ := hend.attempts
  rw [(finishInstall_ok hfinish).2.1]
  exact ⟨hend.refused, n, (h.finishInstall hfinish).trans hn⟩

/-- **The profiler in a whole installation**, whatever the other plugins do, however many
passes there are and whichever version the host has. In the game it is on the list at the
end and its library has been loaded once and started once. In the editor it is not on the
list and has never been started, though its library has been loaded and freed some times. -/
theorem installPlugins_profiler
    (h : ProfilerAmong os profilerPath load view attach detach start)
    {major minor build isEditor : UInt32} (hversion : makeNewVegasVersion major minor build ≠ 0)
    {fuel : ℕ} {w : W} {raised : Bool} {s : Host W H}
    (hrun : installPlugins os ⟨makeNewVegasVersion major minor build, isEditor⟩ fuel
      (Host.initial H w) = some (.ok (raised, s))) :
    ((∃ p ∈ s.manager.plugins, stricmp p.path profilerPath = true) ↔ isEditor = 0) ∧
      (isEditor = 0 → view s.world = start (attach (view w))) ∧
      (isEditor ≠ 0 → ∃ n, view s.world = (detach ∘ attach)^[n] (view w)) := by
  have hquery := nvsePluginQuery_packed hversion isEditor
  by_cases heditor : isEditor = 0
  · obtain ⟨hthere, hview⟩ := h.game (hquery.mpr heditor) hrun
    exact ⟨iff_of_true hthere heditor, fun _ => hview, fun hne => absurd heditor hne⟩
  · obtain ⟨hrefused, hview⟩ :=
      h.editor (Bool.eq_false_iff.mpr fun htrue => heditor (hquery.mp htrue)) hrun
    exact ⟨iff_of_false hrefused heditor, fun hzero => absurd hzero heditor, fun _ => hview⟩

/-! ### From the installation to the log -/

section LogFile

variable {F D : Type} [HookArith F D] {globals : W → Option (Profiler D)}
  {fsopen : String → Bool} {ini : PrivateProfile}

/-- **The log of a game.** Where the globals of the profiler are set up by its library and its
start alone, a whole installation and any run of the hooks after it leave the text of the
run's log in the file, below the loader's lines. In the editor there are no globals. -/
theorem chars_installPlugins
    (h : ProfilerAmong os profilerPath load globals (fun _ => some (attached fsopen))
      (fun _ => none) (Option.map (nvsePluginLoad ini)))
    {major minor build isEditor : UInt32} (hversion : makeNewVegasVersion major minor build ≠ 0)
    {fuel : ℕ} {w : W} {raised : Bool} {s : Host W H} (hw : globals w = none)
    (hrun : installPlugins os ⟨makeNewVegasVersion major minor build, isEditor⟩ fuel
      (Host.initial H w) = some (.ok (raised, s)))
    {name : String} (hname : (IDebugLog.names logPath).find? fsopen = some name) (game : Game)
    (r : Run (Execution F)) :
    (isEditor = 0 → ∃ p file, globals s.world = some p ∧
        (r.exec game p).gLog.logFile = some file ∧ file.name = name ∧
        file.chars = text (preamble D ++ (r.log game (handleIniOptions ini)).map
          (Event.message game))) ∧
      (isEditor ≠ 0 → globals s.world = none) := by
  have hquery := nvsePluginQuery_packed hversion isEditor
  constructor
  · intro heditor
    -- attached and loaded once, as in a process of its own
    obtain ⟨-, hglobals⟩ := h.game (hquery.mpr heditor) hrun
    exact ⟨_, _, hglobals, logFile_process ini game r hname, rfl,
      chars_runFile game name (handleIniOptions ini) r⟩
  · intro heditor
    obtain ⟨-, n, hn⟩ :=
      h.editor (Bool.eq_false_iff.mpr fun htrue => heditor (hquery.mp htrue)) hrun
    rw [hn, hw]
    -- each attempt ends with the library freed, and its globals with it
    cases n with
    | zero => rfl
    | succ n => rw [Function.iterate_succ_apply']; rfl

end LogFile

end Among

/-- A process in which only the globals of the profiler count, with the profiler and another
plugin, which listens to the host. -/
def sampleProcess : OS (Option (Profiler ℚ)) Unit where
  loadLibrary path w :=
    if stricmp path "Profiler.dll" then
      (some (profilerLibrary Unit (Option.map (nvsePluginLoad fun _ _ dflt => dflt.toUInt32))),
        some (attached fun _ => true))
    else (some {
      query := some fun _ _ w => (⟨[], true, w⟩, ⟨1, some "Other", 1⟩)
      load := some fun _ m w =>
        ⟨[.registerListener m.currentPluginHandle (some "NVSE") (some ())], true, w⟩ }, w)
  freeLibrary path w := if stricmp path "Profiler.dll" then none else w
  findFiles _ := ["Other.dll", "Profiler.dll"]
  postLoad _ w := ([], w)
  postPostLoad _ w := ([], w)

theorem profilerAmong_sampleProcess :
    ProfilerAmong sampleProcess "Profiler.dll"
      (Option.map (nvsePluginLoad fun _ _ dflt => dflt.toUInt32)) id
      (fun _ => some (attached fun _ => true)) (fun _ => none)
      (Option.map (nvsePluginLoad fun _ _ dflt => dflt.toUInt32)) where
  path := by decide
  found _ := List.mem_cons_of_mem _ List.mem_cons_self
  library path w hpath := congrArg Prod.fst (if_pos hpath)
  attach path w hpath := congrArg Prod.snd (if_pos hpath)
  detach path w hpath := if_pos hpath
  start _ := rfl
  loadLibrary path w hpath := congrArg Prod.snd (if_neg (Bool.eq_false_iff.mp hpath))
  freeLibrary path w hpath := if_neg (Bool.eq_false_iff.mp hpath)
  others path w hpath lib hlib := by
    have hother : (sampleProcess.loadLibrary path w).1 = _ :=
      congrArg Prod.fst (if_neg (Bool.eq_false_iff.mp hpath))
    rw [hother] at hlib
    obtain rfl := Option.some.inj hlib
    constructor
    · intro query hquery nvse m w
      obtain rfl := Option.some.inj hquery
      rfl
    · intro load hload nvse m w
      obtain rfl := Option.some.inj hload
      rfl
  postLoad _ _ := rfl
  postPostLoad _ _ := rfl

theorem exists_installPlugins_sampleProcess :
    ∃ s, installPlugins sampleProcess gNVSEInterface 3 (Host.initial Unit none)
      = some (.ok (false, s)) := by
  have hrun : (installPlugins sampleProcess gNVSEInterface 3 (Host.initial Unit none)).map
      (fun r => r.toOption.map Prod.fst) = some (some false) := by
    decide +kernel
  obtain ⟨r, hr, hfalse⟩ := Option.map_eq_some_iff.mp hrun
  cases r with
  | error e => exact nomatch hfalse
  | ok r =>
    obtain ⟨raised, s⟩ := r
    obtain rfl : raised = false := Option.some.inj hfalse
    exact ⟨s, hr⟩

/-- In the game its globals are at the end those that a process starts from. -/
theorem installPlugins_profiler_sampleProcess :
    ∃ s, installPlugins sampleProcess gNVSEInterface 3 (Host.initial Unit none)
        = some (.ok (false, s)) ∧
      s.world = some (nvsePluginLoad (fun _ _ dflt => dflt.toUInt32) (attached fun _ => true)) := by
  obtain ⟨s, hs⟩ := exists_installPlugins_sampleProcess
  exact ⟨s, hs, (installPlugins_profiler profilerAmong_sampleProcess (by decide) hs).2.1 rfl⟩

/-- A frame with an execution of half a second in it. -/
def sampleFrame : Run (Execution ℚ) :=
  ⟨[.frame ⟨⟨fun _ _ => 0, 0⟩, [⟨1, ⟨0x01000800⟩, 1 / 2⟩], 16⟩], none⟩

theorem chars_installPlugins_sampleProcess :
    ∃ s p file, installPlugins sampleProcess gNVSEInterface 3 (Host.initial Unit none)
        = some (.ok (false, s)) ∧ s.world = some p ∧
      (sampleFrame.exec sampleGame p).gLog.logFile = some file ∧
      file.chars = text (preamble ℚ ++ (sampleFrame.log sampleGame
        (handleIniOptions fun _ _ dflt => dflt.toUInt32)).map (Event.message sampleGame)) := by
  obtain ⟨s, hs⟩ := exists_installPlugins_sampleProcess
  have hversion : makeNewVegasVersion 5 1 4 ≠ 0 := by decide
  have h := chars_installPlugins (F := ℚ) profilerAmong_sampleProcess hversion rfl hs rfl
    sampleGame sampleFrame
  obtain ⟨p, file, hp, hfile, -, hchars⟩ := h.1 rfl
  exact ⟨s, p, file, hs, hp, hfile, hchars⟩

end RuntimeScriptProfiler
