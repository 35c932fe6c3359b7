/-
  Jmux.Socket.AutoNaming — the titles that a model gives, and those of the user.

  `workspace.clear_status` starts a thread for a workspace without a title.  The
  thread reads the terminal, asks the model and writes the title, with anything
  in between.

  Main results:
    * `step_tracked`          — what one step keeps.
    * `user_titles_stay_iff`  — over every run, no title of the user is replaced
                                 exactly when no title is written over one that the
                                 user gave after the check.
-/
import Jmux.Socket.WorkspaceAction

namespace Jmux.Socket

open Jmux.Lib Jmux.Model

variable {F : Type}

/-! ## §1. Requests and threads. -/

/-- The workspace for which `workspace.clear_status` starts a thread. -/
def handleWorkspaceClearStatusNames (env : V2Env F) (params : Value F) (aiAutoNaming : Bool)
    (tm : TabManager) : Option Uuid :=
  match (parseWorkspaceParam env params).bind fun wsId =>
      workspaceOr tm wsId "Workspace not found" with
  | .ok ws => if ws.customTitle.isNone ∧ aiAutoNaming then some ws.id else none
  | .error _ => none

/-- Where `ai_name_workspace_core` is. -/
inductive NamingStage
  | started
  /-- The focused panel is known, its text is on the way. -/
  | reading (panelId : Uuid)
  | asking (transcript : String)
  | named (title : String)
  | over
  deriving DecidableEq

/-- A thread.  The code keeps no `renamed`: it says that the title of the workspace is
one that the user gave it after the check. -/
structure Naming where
  workspace : Uuid
  stage     : NamingStage := .started
  renamed   : Bool := false
  deriving DecidableEq

/-- The tab manager and the threads; the code does not keep `byUser`, the workspaces
whose title is the user's. -/
structure NamingState where
  tm      : TabManager
  threads : List Naming := []
  byUser  : Uuid → Bool

inductive NamingAction (F : Type)
  | clearStatus (params : Value F) (aiAutoNaming : Bool)
  /-- The thread takes the first lock. -/
  | start (thread : Nat)
  /-- The terminal answers, or does not. -/
  | receive (thread : Nat) (transcript : Option String)
  /-- `generate_workspace_title` returns. -/
  | answer (thread : Nat) (title : Except String String)
  /-- The thread takes the second lock. -/
  | apply (thread : Nat)
  | rename (params : Value F)
  /-- The first lock of `workspace.action`. -/
  | action (params : Value F)
  /-- Any request that gives no workspace another title. -/
  | other (tm : TabManager)

namespace NamingState

/-- The titles that are there are the user's. -/
def start (tm : TabManager) : NamingState where
  tm
  byUser id := (tm.workspace id).any (·.customTitle.isSome)

/-- The thread goes on to another stage. -/
def goOn (s : NamingState) (thread : Nat) (stage : NamingStage) : NamingState :=
  { s with threads := s.threads.modify thread fun t => { t with stage } }

/-- The workspace has a title of the user from now on, or none of his. -/
def mark (s : NamingState) (id : Uuid) (user : Bool) : NamingState :=
  { s with
    threads := s.threads.map fun t => if t.workspace = id then { t with renamed := user } else t
    byUser  := Function.update s.byUser id user }

/-- `ws.custom_title = ..` -/
def retitle (tm : TabManager) (id : Uuid) (title : Option String) : TabManager :=
  { tm with workspaces := tm.workspaces.modifyFirst (·.id = id) fun ws =>
      { ws with customTitle := title } }

/-- A workspace that was there keeps its title, one that comes has a new id. -/
def Fits (s : NamingState) (tm : TabManager) : Prop :=
  tm.WorkspaceIds ∧ ∀ ws ∈ tm.workspaces,
    (∃ old ∈ s.tm.workspaces, old.id = ws.id ∧ old.customTitle = ws.customTitle) ∨
      (ws.id ∉ s.tm.workspaces.map (·.id) ∧ ∀ t ∈ s.threads, t.workspace ≠ ws.id)

/-- The title with which a workspace comes is the user's. -/
def arrivals (s : NamingState) (tm : TabManager) (id : Uuid) : Bool :=
  if id ∈ s.tm.workspaces.map (·.id) then s.byUser id
  else ((tm.workspace id).map (·.customTitle.isSome)).getD (s.byUser id)

/-- The thread at the second lock. -/
def applyTitle (s : NamingState) (t : Naming) (title : String) : NamingState :=
  match s.tm.workspace t.workspace with
  | some _ =>
      { s.mark t.workspace false with
        tm := retitle s.tm t.workspace (some (truncateStr title maxTitleLen)) }
  | none => s

instance (s : NamingState) (tm : TabManager) : Decidable (s.Fits tm) := by
  unfold Fits TabManager.WorkspaceIds
  infer_instance

def step (env : V2Env F) (s : NamingState) : NamingAction F → Option NamingState
  | .clearStatus params aiAutoNaming =>
      match handleWorkspaceClearStatusNames env params aiAutoNaming s.tm with
      | some id => some { s with threads := s.threads ++ [{ workspace := id }] }
      | none => some s
  | .start thread =>
      match s.threads[thread]? with
      | some { workspace, stage := .started, .. } =>
          match (s.tm.workspace workspace).bind (·.focusedPanelId) with
          | some panelId => some (s.goOn thread (.reading panelId))
          | none => some (s.goOn thread .over)
      | _ => none
  | .receive thread transcript =>
      match s.threads[thread]? with
      | some { stage := .reading _, .. } =>
          some (s.goOn thread ((transcript.map NamingStage.asking).getD .over))
      | _ => none
  | .answer thread title =>
      match s.threads[thread]? with
      | some { stage := .asking _, .. } =>
          some (s.goOn thread ((title.toOption.map NamingStage.named).getD .over))
      | _ => none
  | .apply thread =>
      match s.threads[thread]? with
      | some t =>
          match t.stage with
          | .named title => some ((s.applyTitle t title).goOn thread .over)
          | _ => none
      | none => none
  | .rename params =>
      match handleWorkspaceRename env s.tm params with
      | .ok (.setTitle id title) =>
          some { s.mark id true with tm := retitle s.tm id (some title) }
      | _ => some s
  | .action params =>
      let tm := (firstLock env params s.tm).1
      match handleWorkspaceAction env s.tm params with
      | .ok (.act id (.rename _)) => some { s.mark id true with tm }
      | .ok (.act id .clearName) => some { s.mark id false with tm }
      | _ => some { s with tm }
  | .other tm => if s.Fits tm then some { s with tm, byUser := s.arrivals tm } else none

/-! ## §2. Whose titles are replaced. -/

/-- A thread that writes leaves every title of the user as it is. -/
def KeepsUserTitles (env : V2Env F) (s : NamingState) : NamingAction F → Prop
  | .apply thread => ∀ s', s.step env (.apply thread) = some s' →
      ∀ ws ∈ s.tm.workspaces, s.byUser ws.id = true →
        ∃ ws' ∈ s'.tm.workspaces, ws'.id = ws.id ∧ ws'.customTitle = ws.customTitle
  | _ => True

/-- A thread writes no other title over one that the user gave after the check. -/
def WritesUnrenamed (s : NamingState) : NamingAction F → Prop
  | .apply thread => ∀ t title, s.threads[thread]? = some t → t.stage = .named title →
      t.renamed = true → ∀ ws, s.tm.workspace t.workspace = some ws →
        ws.customTitle = some (truncateStr title maxTitleLen)
  | _ => True

/-- A title of the user is a title, and for a thread it came after the check. -/
structure Tracked (s : NamingState) : Prop where
  ids     : s.tm.WorkspaceIds
  titled  : ∀ ws ∈ s.tm.workspaces, s.byUser ws.id = true → ws.customTitle.isSome = true
  renamed : ∀ t ∈ s.threads, t.renamed = s.byUser t.workspace

/-! ## §3. What a step keeps. -/

theorem workspaceOr_mem {tm : TabManager} {id : Option Uuid} {message : String} {ws : Workspace}
    (h : workspaceOr tm id message = .ok ws) : ws ∈ tm.workspaces := by
  unfold workspaceOr orElseReturn at h
  split at h
  · next found hfound =>
      obtain rfl := Except.ok.inj h
      split at hfound
      · exact List.mem_of_find?_eq_some hfound
      · obtain ⟨i, _, hget⟩ := Option.bind_eq_some_iff.mp hfound
        exact List.mem_of_getElem? hget
  · cases h

variable {env : V2Env F} {s s' : NamingState}

theorem start_tracked {tm : TabManager} (hids : tm.WorkspaceIds) : (start tm).Tracked where
  ids := hids
  titled ws hws h := by
    have hfound : tm.workspace ws.id = some ws :=
      (List.find?_key_eq_some hids).mpr ⟨hws, rfl⟩
    have hany : (tm.workspace ws.id).any (·.customTitle.isSome) = true := h
    rwa [hfound] at hany
  renamed t ht := by cases ht

theorem Tracked.goOn (h : s.Tracked) (thread : Nat) (stage : NamingStage) :
    (s.goOn thread stage).Tracked where
  ids := h.ids
  titled := h.titled
  renamed t ht := by
    obtain ⟨i, hi, rfl⟩ := List.getElem_of_mem ht
    have hlt : i < s.threads.length := by simpa [NamingState.goOn] using hi
    have hold := h.renamed s.threads[i] (List.getElem_mem hlt)
    simp only [NamingState.goOn, List.getElem_modify]
    split
    · exact hold
    · exact hold

/-- A workspace gets another title, and whose it is is noted. -/
theorem Tracked.retitled (h : s.Tracked) (id : Uuid) {edit : Workspace → Workspace} {user : Bool}
    (hid : ∀ ws, (edit ws).id = ws.id)
    (htitle : user = true → ∀ ws, (edit ws).customTitle.isSome = true) :
    Tracked { s.mark id user with
      tm := { s.tm with workspaces := s.tm.workspaces.modifyFirst (·.id = id) edit } } where
  ids := by
    show ((s.tm.workspaces.modifyFirst _ edit).map (·.id)).Nodup
    rw [List.map_modifyFirst _ _ _ hid]
    exact h.ids
  titled ws hws huser := by
    have hws' : ws ∈ s.tm.workspaces.modifyFirst (·.id = id) edit := hws
    have huser' : Function.update s.byUser id user ws.id = true := huser
    rw [List.modifyFirst_key_eq_map h.ids] at hws'
    obtain ⟨old, hold, rfl⟩ := List.mem_map.mp hws'
    split at huser'
    · next hsame =>
        rw [if_pos hsame]
        rw [hid, hsame, Function.update_self] at huser'
        exact htitle huser' old
    · next hother =>
        rw [if_neg hother]
        rw [Function.update_of_ne hother] at huser'
        exact h.titled old hold huser'
  renamed t ht := by
    have ht' : t ∈ s.threads.map fun t =>
        if t.workspace = id then { t with renamed := user } else t := ht
    show t.renamed = Function.update s.byUser id user t.workspace
    obtain ⟨old, hold, rfl⟩ := List.mem_map.mp ht'
    split
    · next hsame =>
        show user = Function.update s.byUser id user old.workspace
        rw [hsame, Function.update_self]
    · next hother =>
        rw [Function.update_of_ne hother]
        exact h.renamed old hold

/-- A workspace changes, but not its title. -/
theorem Tracked.edited (h : s.Tracked) (id : Uuid) {edit : Workspace → Workspace}
    (hid : ∀ ws, (edit ws).id = ws.id) (htitle : ∀ ws, (edit ws).customTitle = ws.customTitle) :
    Tracked { s with
      tm := { s.tm with workspaces := s.tm.workspaces.modifyFirst (·.id = id) edit } } where
  ids := by
    show ((s.tm.workspaces.modifyFirst _ edit).map (·.id)).Nodup
    rw [List.map_modifyFirst _ _ _ hid]
    exact h.ids
  titled ws hws huser := by
    rcases List.mem_modifyFirst hws with hws | ⟨old, hold, _, rfl⟩
    · exact h.titled ws hws huser
    · rw [htitle]
      rw [hid] at huser
      exact h.titled old hold huser
  renamed := h.renamed

/-- The check: the workspace has no title. -/
theorem names_untitled {params : Value F} {aiAutoNaming : Bool} {tm : TabManager} {id : Uuid}
    (h : handleWorkspaceClearStatusNames env params aiAutoNaming tm = some id) :
    ∃ ws ∈ tm.workspaces, ws.id = id ∧ ws.customTitle = none := by
  unfold handleWorkspaceClearStatusNames at h
  split at h
  · next ws hws =>
      split at h
      · next hcheck =>
          obtain rfl := Option.some.inj h
          refine ⟨ws, ?_, rfl, Option.isNone_iff_eq_none.mp hcheck.1⟩
          cases hid : parseWorkspaceParam env params with
          | error resp =>
              rw [hid] at hws
              cases hws
          | ok wsId =>
              rw [hid] at hws
              exact workspaceOr_mem hws
      · cases h
  · cases h

theorem Tracked.cleared (h : s.Tracked) {params : Value F} {aiAutoNaming : Bool} {id : Uuid}
    (hnames : handleWorkspaceClearStatusNames env params aiAutoNaming s.tm = some id) :
    Tracked { s with threads := s.threads ++ [{ workspace := id }] } where
  ids := h.ids
  titled := h.titled
  renamed t ht := by
    rcases List.mem_append.mp ht with ht | ht
    · exact h.renamed t ht
    · obtain rfl := List.mem_singleton.mp ht
      obtain ⟨ws, hws, rfl, hnone⟩ := names_untitled hnames
      show false = s.byUser ws.id
      cases huser : s.byUser ws.id with
      | false => rfl
      | true =>
          have hsome := h.titled ws hws huser
          rw [hnone] at hsome
          cases hsome

theorem Tracked.applied (h : s.Tracked) (t : Naming) (title : String) :
    (s.applyTitle t title).Tracked := by
  unfold applyTitle
  cases s.tm.workspace t.workspace with
  | none => exact h
  | some ws => exact h.retitled t.workspace (fun _ => rfl) (fun huser => nomatch huser)

theorem edit_customTitle {action : WorkspaceAction} (hrename : ∀ title, action ≠ .rename title)
    (hclear : action ≠ .clearName) (ws : Workspace) :
    (action.edit ws).customTitle = ws.customTitle := by
  cases action with
  | rename title => exact absurd rfl (hrename title)
  | clearName => exact absurd rfl hclear
  | _ => rfl

/-- What the first lock does where it does not name the workspace. -/
theorem Tracked.acted (h : s.Tracked) (params : Value F)
    (hrename : ∀ id title, handleWorkspaceAction env s.tm params ≠ .ok (.act id (.rename title)))
    (hclear : ∀ id, handleWorkspaceAction env s.tm params ≠ .ok (.act id .clearName)) :
    Tracked { s with tm := (firstLock env params s.tm).1 } := by
  unfold firstLock
  split
  · next id action hact =>
      split
      · exact h
      · refine h.edited id (edit_id action) (edit_customTitle ?_ ?_)
        · rintro title rfl
          exact hrename id title hact
        · rintro rfl
          exact hclear id hact
  · exact h

/-- What it does where it does. -/
theorem firstLock_of_act {params : Value F} {tm : TabManager} {id : Uuid}
    {action : WorkspaceAction} (hact : handleWorkspaceAction env tm params = .ok (.act id action))
    (hsecond : secondLock tm id action = none) :
    (firstLock env params tm).1 =
      { tm with workspaces := tm.workspaces.modifyFirst (·.id = id) action.edit } := by
  unfold firstLock
  rw [hact]
  dsimp only
  rw [hsecond]

theorem Tracked.others (h : s.Tracked) {tm : TabManager} (hfits : s.Fits tm) :
    Tracked { s with tm, byUser := s.arrivals tm } where
  ids := hfits.1
  titled ws hws huser := by
    have huser' : s.arrivals tm ws.id = true := huser
    have hfound : tm.workspace ws.id = some ws :=
      (List.find?_key_eq_some hfits.1).mpr ⟨hws, rfl⟩
    unfold arrivals at huser'
    split at huser'
    · next hknown =>
        rcases hfits.2 ws hws with ⟨old, hold, hid, htitle⟩ | ⟨hnew, _⟩
        · rw [← htitle]
          exact h.titled old hold (by rwa [hid])
        · exact absurd hknown hnew
    · rw [hfound] at huser'
      exact huser'
  renamed t ht := by
    show t.renamed = s.arrivals tm t.workspace
    rw [h.renamed t ht]
    unfold arrivals
    split
    · rfl
    · next hunknown =>
        cases hfound : tm.workspace t.workspace with
        | none => rfl
        | some ws =>
            -- a workspace that was not there is not one that a thread is about
            have hid := workspace_id hfound
            rcases hfits.2 ws (List.mem_of_find?_eq_some hfound) with ⟨old, hold, hold', _⟩ | ⟨_, hno⟩
            · exact absurd (List.mem_map.mpr ⟨old, hold, hold'.trans hid⟩) hunknown
            · exact absurd hid.symm (hno t ht)

/-- Before the second lock a thread only goes on. -/
theorem step_goesOn {a : NamingAction F} {thread : Nat} (hs : s.step env a = some s')
    (ha : a = .start thread ∨ (∃ transcript, a = .receive thread transcript) ∨
      ∃ title, a = .answer thread title) : ∃ stage, s' = s.goOn thread stage := by
  rcases ha with rfl | ⟨transcript, rfl⟩ | ⟨title, rfl⟩
  · simp only [step] at hs
    split at hs
    · split at hs
      · exact ⟨_, (Option.some.inj hs).symm⟩
      · exact ⟨_, (Option.some.inj hs).symm⟩
    · cases hs
  · simp only [step] at hs
    split at hs
    · exact ⟨_, (Option.some.inj hs).symm⟩
    · cases hs
  · simp only [step] at hs
    split at hs
    · exact ⟨_, (Option.some.inj hs).symm⟩
    · cases hs

/-- At the second lock it writes. -/
theorem step_apply {thread : Nat} (hs : s.step env (.apply thread) = some s') :
    ∃ t title, s.threads[thread]? = some t ∧ t.stage = .named title ∧
      s' = (s.applyTitle t title).goOn thread .over := by
  simp only [step] at hs
  split at hs
  · next t ht =>
      split at hs
      · next title hstage => exact ⟨t, title, ht, hstage, (Option.some.inj hs).symm⟩
      · cases hs
  · cases hs

theorem step_tracked {a : NamingAction F} (h : s.Tracked) (hs : s.step env a = some s') :
    s'.Tracked := by
  cases a with
  | clearStatus params aiAutoNaming =>
      cases hnames : handleWorkspaceClearStatusNames env params aiAutoNaming s.tm with
      | none =>
          simp only [step, hnames, Option.some.injEq] at hs
          subst hs
          exact h
      | some id =>
          simp only [step, hnames, Option.some.injEq] at hs
          subst hs
          exact h.cleared hnames
  | start thread =>
      obtain ⟨stage, rfl⟩ := step_goesOn hs (.inl rfl)
      exact h.goOn thread stage
  | receive thread transcript =>
      obtain ⟨stage, rfl⟩ := step_goesOn hs (.inr (.inl ⟨transcript, rfl⟩))
      exact h.goOn thread stage
  | answer thread title =>
      obtain ⟨stage, rfl⟩ := step_goesOn hs (.inr (.inr ⟨title, rfl⟩))
      exact h.goOn thread stage
  | apply thread =>
      obtain ⟨t, title, _, _, rfl⟩ := step_apply hs
      exact (h.applied t title).goOn thread .over
  | rename params =>
      simp only [step] at hs
      split at hs
      · obtain rfl := Option.some.inj hs
        exact h.retitled _ (fun _ => rfl) (fun _ _ => rfl)
      · obtain rfl := Option.some.inj hs
        exact h
  | action params =>
      simp only [step] at hs
      split at hs
      · next id title hact =>
          obtain rfl := Option.some.inj hs
          rw [firstLock_of_act hact rfl]
          exact h.retitled id (edit_id _) (fun _ _ => rfl)
      · next id hact =>
          obtain rfl := Option.some.inj hs
          rw [firstLock_of_act hact rfl]
          exact h.retitled id (edit_id _) (fun huser => nomatch huser)
      · next hrename hclear =>
          obtain rfl := Option.some.inj hs
          exact h.acted params (fun id title hact => hrename id title hact)
            (fun id hact => hclear id hact)
  | other tm =>
      by_cases hfits : s.Fits tm
      · simp only [step, if_pos hfits, Option.some.injEq] at hs
        subst hs
        exact h.others hfits
      · simp [step, if_neg hfits] at hs

/-! ## §4. Every write of every run. -/

/-- What is left of a title of the user after a write to the workspace `id`. -/
theorem retitle_keeps_iff {tm : TabManager} (hids : tm.WorkspaceIds) {ws : Workspace}
    (hws : ws ∈ tm.workspaces) (id : Uuid) (title : Option String) :
    (∃ ws' ∈ (retitle tm id title).workspaces,
        ws'.id = ws.id ∧ ws'.customTitle = ws.customTitle) ↔
      (ws.id = id → ws.customTitle = title) := by
  have hmap : (retitle tm id title).workspaces =
      tm.workspaces.map fun ws => if ws.id = id then { ws with customTitle := title } else ws :=
    List.modifyFirst_key_eq_map hids id _
  have hkey : ∀ ws : Workspace,
      (if ws.id = id then { ws with customTitle := title } else ws).id = ws.id := by
    intro ws
    split
    · rfl
    · rfl
  rw [hmap]
  constructor
  · rintro ⟨ws', hws', hid, htitle⟩ hsame
    obtain ⟨old, hold, rfl⟩ := List.mem_map.mp hws'
    rw [hkey] at hid
    rw [if_pos (hid.trans hsame)] at htitle
    exact htitle.symm
  · intro h
    refine ⟨_, List.mem_map_of_mem hws, hkey ws, ?_⟩
    split
    · next hsame => exact (h hsame).symm
    · rfl

theorem keepsUserTitles_iff {thread : Nat} (h : s.Tracked) :
    KeepsUserTitles env s (.apply thread) ↔
      WritesUnrenamed s (.apply thread : NamingAction F) := by
  constructor
  · intro hkeeps t title ht hstage hrenamed ws hws
    have hs : s.step env (.apply thread) = some ((s.applyTitle t title).goOn thread .over) := by
      simp only [step, ht, hstage]
    have hmem := List.mem_of_find?_eq_some hws
    have hid : ws.id = t.workspace := workspace_id hws
    have huser : s.byUser ws.id = true := by
      rw [hid, ← h.renamed t (List.mem_of_getElem? ht)]
      exact hrenamed
    have hleft := hkeeps _ hs ws hmem huser
    unfold applyTitle at hleft
    rw [hws] at hleft
    exact (retitle_keeps_iff h.ids hmem _ _).mp hleft hid
  · intro hwrites s' hs ws hws huser
    obtain ⟨t, title, ht, hstage, rfl⟩ := step_apply hs
    unfold applyTitle
    cases hfound : s.tm.workspace t.workspace with
    | none => exact ⟨ws, hws, rfl, rfl⟩
    | some found =>
        refine (retitle_keeps_iff h.ids hws _ _).mpr fun hid => ?_
        have hsame : s.tm.workspace t.workspace = some ws :=
          (List.find?_key_eq_some h.ids).mpr ⟨hws, hid⟩
        have hrenamed : t.renamed = true := by
          rw [h.renamed t (List.mem_of_getElem? ht), ← hid]
          exact huser
        exact hwrites t title ht hstage hrenamed ws hsame

/-- **Titles of the user stay**: in a run no title that the user set is replaced by a
generated one exactly when no thread writes another title over one that the user gave
after the check with which the thread began. -/
theorem user_titles_stay_iff (env : V2Env F) {tm : TabManager} (hids : tm.WorkspaceIds)
    (run : List (NamingAction F)) :
    EveryStep (step env) (KeepsUserTitles env) (start tm) run ↔
      EveryStep (step env) WritesUnrenamed (start tm) run := by
  refine everyStep_congr Tracked (fun s a s' => step_tracked) ?_ (start_tracked hids)
  intro s a h
  cases a with
  | apply thread => exact keepsUserTitles_iff h
  | _ => exact Iff.rfl

end NamingState

/-- An agent finishes and the model is asked for a title. -/
def naming (title : String) (between : List (NamingAction Int)) : List (NamingAction Int) :=
  [.clearStatus (.obj []) true, .start 0, .receive 0 (some "cargo test")] ++ between ++
    [.answer 0 (.ok title), .apply 0]

def renameParams : Value Int := .obj [("title", .str "Release")]

/-- Undisturbed, the workspace gets the title of the model. -/
theorem user_titles_stay_undisturbed :
    EveryStep (NamingState.step sampleV2Env) (NamingState.KeepsUserTitles sampleV2Env)
      (.start sampleTabs) (naming "Rust Tests" []) := by
  refine (NamingState.user_titles_stay_iff sampleV2Env (by
    unfold TabManager.WorkspaceIds; decide) _).mpr ?_
  refine ⟨trivial, fun s hs => ?_⟩
  obtain rfl := Option.some.inj hs
  refine ⟨trivial, fun s hs => ?_⟩
  obtain rfl := Option.some.inj hs
  refine ⟨trivial, fun s hs => ?_⟩
  obtain rfl := Option.some.inj hs
  refine ⟨trivial, fun s hs => ?_⟩
  obtain rfl := Option.some.inj hs
  refine ⟨?_, fun _ _ => trivial⟩
  intro t title ht _ hrenamed
  obtain rfl := Option.some.inj ht
  cases hrenamed

/-- The user renames the workspace while the model is thinking, and loses the title. -/
theorem user_title_replaced :
    sampleTabs.WorkspaceIds ∧
      ¬ EveryStep (NamingState.step sampleV2Env) (NamingState.KeepsUserTitles sampleV2Env)
        (.start sampleTabs) (naming "Rust Tests" [.rename renameParams]) := by
  refine ⟨by unfold TabManager.WorkspaceIds; decide, fun h => ?_⟩
  have happly := (((((h.2 _ rfl).2 _ rfl).2 _ rfl).2 _ rfl).2 _ rfl).1
  obtain ⟨ws', hws', _, htitle⟩ := happly _ rfl _ List.mem_cons_self rfl
  obtain rfl := List.mem_singleton.mp hws'
  exact absurd htitle (by decide)

end Jmux.Socket
