/-
  Jmux.Ui.NotesPanel — where the notes of a workspace are kept
  (`ui/notes_panel.rs`).

  Notes are grouped by scope, and each scope has a directory in the notes tree: one for
  all, one for each SSH host, and one for each folder, under the path of the folder.

  Main results:
    * `sanitizeDest_eq_iff`    — which destinations get the same name.
    * `mem_scopes_of_noEscape` — the directories of a context in the notes tree.
    * `scopes_kept_apart_iff`  — which contexts share no notes.
-/
import Mathlib.Data.Bool.AllAny
import Mathlib.Data.List.Forall2
import Mathlib.Data.List.Sort
import Jmux.Lib.Places

namespace Jmux.Ui

open Jmux.Lib
open Jmux.Lib.Path (Place Plain components follow staysBelow)

/-! ## §1. Contexts and their scopes. -/

inductive Scope
  | global
  | host
  | folder
  deriving DecidableEq, Repr

/-- A scope group and the directory of its notes. -/
structure ScopeInfo where
  scope : Scope
  dir   : Place
  deriving DecidableEq

structure NotesContext where
  cwd    : Option (List Char)
  remote : Option (List Char)
  deriving DecidableEq

/-- What the owning workspace says: its directory and its SSH destination. -/
structure Owner where
  currentDirectory : List Char
  destination      : Option (List Char)

def resolveContext : Option Owner → NotesContext
  | some ws =>
      { cwd    := (some ws.currentDirectory).filter (· ≠ [])
        remote := ws.destination.filter (· ≠ []) }
  | none => ⟨none, none⟩

/-- `<data>/jmux/notes` -/
def notesTreeRoot (dataDir : Place) : Place :=
  follow (follow dataDir (components "jmux".toList)) (components "notes".toList)

/-- Strip the root from the components of a path. -/
def mirrorRel : List (List Char) → List (List Char)
  | [] => []
  | part :: rest => if part = ['/'] then rest else part :: rest

def sanitizeDest (dest : List Char) : List Char :=
  dest.map fun c => if c = '/' ∨ c = '\\' then '_' else c

/-- The loop of `git_root`; the components come in reverse, and the root is the last path
from which `pop` does not go on. -/
def walkUp (hasGit : List (List Char) → Bool) : List (List Char) → Option (List (List Char))
  | [] => none
  | last :: above =>
      if hasGit (last :: above).reverse then some (last :: above).reverse else walkUp hasGit above

/-- `hasGit`: whether a directory, given by the components of its path, has a `.git`. -/
def gitRoot (hasGit : List (List Char) → Bool) (start : List Char) : Option (List (List Char)) :=
  if start.head? = some '/' then walkUp hasGit (components start).reverse else none

/-- The path of the folder that a local context is about. -/
def repositoryRoot (hasGit : List (List Char) → Bool) (cwd : List Char) : List (List Char) :=
  (gitRoot hasGit cwd).getD (components cwd)

def Scope.order : Scope → Nat
  | .global => 0
  | .host => 1
  | .folder => 2

variable (dataDir : Place) (hasGit : List (List Char) → Bool)

def hostDir (dest : List Char) : Place :=
  follow (follow (notesTreeRoot dataDir) (components "remote".toList)) (components (sanitizeDest dest))

/-- The scopes in the order in which they are found. -/
def foundScopes (ctx : NotesContext) : List ScopeInfo :=
  ⟨.global, follow (notesTreeRoot dataDir) (components "global".toList)⟩ ::
    match ctx.remote with
    | some dest =>
        (ctx.cwd.toList.map fun cwd =>
          ⟨.folder, follow (hostDir dataDir dest) (mirrorRel (components cwd))⟩) ++
        [⟨.host, hostDir dataDir dest⟩]
    | none =>
        ctx.cwd.toList.map fun cwd =>
          ⟨.folder, follow (follow (notesTreeRoot dataDir) (components "local".toList))
            (mirrorRel (repositoryRoot hasGit cwd))⟩

def scopes (ctx : NotesContext) : List ScopeInfo :=
  (foundScopes dataDir hasGit ctx).insertionSort fun a b => a.scope.order ≤ b.scope.order

/-! ## §2. What is to hold. -/

/-- The context has an absolute directory and a destination that is not empty, if any. -/
structure Reported (ctx : NotesContext) : Prop where
  absolute : ∀ cwd ∈ ctx.cwd, cwd.head? = some '/'
  named    : ∀ dest ∈ ctx.remote, dest ≠ []

/-- The directory that the folder scope is about. -/
def folderPlace (ctx : NotesContext) : Option Place :=
  ctx.cwd.map fun cwd =>
    match ctx.remote with
    | some _ => follow [] (components cwd)
    | none => follow [] (repositoryRoot hasGit cwd)

/-- The two scopes are the same: of the same host, or of the same directory on it. -/
def SameScope (c c' : NotesContext) : Scope → Scope → Prop
  | .host, .host => c.remote = c'.remote
  | .folder, .folder => c.remote = c'.remote ∧ folderPlace hasGit c = folderPlace hasGit c'
  | _, _ => False

/-- Every scope is in the notes tree, the scopes of one context have different directories,
and host and folder directories are only shared by the same scope. -/
structure KeptApart (c c' : NotesContext) : Prop where
  inside    : ∀ s ∈ scopes dataDir hasGit c ++ scopes dataDir hasGit c',
                notesTreeRoot dataDir <+: s.dir ∧ s.dir ≠ notesTreeRoot dataDir
  different : ∀ ctx ∈ [c, c'], ∀ s ∈ scopes dataDir hasGit ctx, ∀ s' ∈ scopes dataDir hasGit ctx,
                s.dir = s'.dir → s.scope = s'.scope
  shared    : ∀ s ∈ scopes dataDir hasGit c, ∀ s' ∈ scopes dataDir hasGit c',
                s.scope ≠ .global → s'.scope ≠ .global → s.dir = s'.dir →
                  SameScope hasGit c c' s.scope s'.scope

/-- The destination is no `.` and no `..`, and the `..` in the directory do not go above `/`. -/
structure NoEscape (ctx : NotesContext) : Prop where
  oneName : ∀ dest ∈ ctx.remote, dest ≠ ['.'] ∧ dest ≠ ['.', '.']
  stays   : ∀ cwd ∈ ctx.cwd, staysBelow 0 (mirrorRel (components cwd)) = true

/-- The directory of a remote context is not the root. -/
def FolderBelowHost (ctx : NotesContext) : Prop :=
  ∀ cwd ∈ ctx.cwd, ctx.remote.isSome → follow [] (components cwd) ≠ []

/-- Two characters that are equal or both become `_`. -/
def AlikeChar (a b : Char) : Prop := a = b ∨ (a ∈ ['/', '\\', '_'] ∧ b ∈ ['/', '\\', '_'])

/-- Both are remote, and the destinations differ in nothing but slashes, backslashes and
underscores. -/
def Confused (c c' : NotesContext) : Prop :=
  ∃ dest dest', c.remote = some dest ∧ c'.remote = some dest' ∧ dest ≠ dest' ∧
    List.Forall₂ AlikeChar dest dest'

/-! ## §3. Destinations as names. -/

theorem sanitized_char_eq_iff (a b : Char) :
    ((if a = '/' ∨ a = '\\' then '_' else a) = if b = '/' ∨ b = '\\' then '_' else b) ↔
      AlikeChar a b := by
  unfold AlikeChar
  simp only [List.mem_cons, List.not_mem_nil, or_false]
  by_cases ha : a = '/' ∨ a = '\\'
  · rw [if_pos ha]
    by_cases hb : b = '/' ∨ b = '\\'
    · rw [if_pos hb]
      tauto
    · rw [if_neg hb]
      constructor
      · intro h
        exact .inr ⟨by tauto, .inr (.inr h.symm)⟩
      · rintro (rfl | ⟨-, h⟩)
        · exact absurd ha hb
        · tauto
  · rw [if_neg ha]
    by_cases hb : b = '/' ∨ b = '\\'
    · rw [if_pos hb]
      constructor
      · intro h
        exact .inr ⟨.inr (.inr h), by tauto⟩
      · rintro (rfl | ⟨h, -⟩)
        · exact absurd hb ha
        · tauto
    · rw [if_neg hb]
      constructor
      · intro h
        exact .inl h
      · rintro (h | ⟨h, h'⟩)
        · exact h
        · have ha' : a = '_' := by tauto
          have hb' : b = '_' := by tauto
          rw [ha', hb']

/-- **Which destinations get one name.** -/
theorem sanitizeDest_eq_iff (dest dest' : List Char) :
    sanitizeDest dest = sanitizeDest dest' ↔ List.Forall₂ AlikeChar dest dest' := by
  unfold sanitizeDest
  rw [← List.forall₂_eq_eq_eq, List.forall₂_map_left_iff, List.forall₂_map_right_iff]
  constructor
  · exact List.Forall₂.imp fun a b h => (sanitized_char_eq_iff a b).mp h
  · exact List.Forall₂.imp fun a b h => (sanitized_char_eq_iff a b).mpr h

/-- Only dots become dots. -/
theorem eq_of_sanitizeDest_dots {dest word : List Char} (hdots : ∀ c ∈ word, c = '.')
    (h : sanitizeDest dest = word) : dest = word := by
  subst h
  unfold sanitizeDest at hdots ⊢
  refine ((List.map_congr_left fun c hc => ?_).trans (List.map_id _)).symm
  have hc := hdots _ (List.mem_map_of_mem hc)
  split at hc
  · exact absurd hc (by decide)
  · next hno => rw [if_neg hno]; rfl

theorem sanitizeDest_plain {dest : List Char} (hne : dest ≠ []) (hdot : dest ≠ ['.'])
    (hdots : dest ≠ ['.', '.']) : Plain (sanitizeDest dest) := by
  refine ⟨⟨fun h => hne (List.map_eq_nil_iff.mp h), fun h => hdot ?_, fun h => ?_⟩, fun h => hdots ?_⟩
  · exact eq_of_sanitizeDest_dots (List.all_iff_forall_prop.mp rfl) h
  · obtain ⟨c, -, hc⟩ := List.mem_map.mp h
    split at hc
    · exact absurd hc (by decide)
    · next hno => exact hno (.inl hc)
  · exact eq_of_sanitizeDest_dots (List.all_iff_forall_prop.mp rfl) h

/-! ## §4. The directories of a context. -/

variable {dataDir hasGit} {ctx c c' : NotesContext}

theorem resolveContext_named (owner : Option Owner) :
    ∀ dest ∈ (resolveContext owner).remote, dest ≠ [] := by
  intro dest hdest
  cases owner with
  | none => cases hdest
  | some ws => simpa using (Option.filter_eq_some_iff.mp hdest).2

theorem mirrorRel_prefix {parts more : List (List Char)} (hne : parts ≠ []) (h : parts <+: more) :
    mirrorRel parts <+: mirrorRel more := by
  obtain ⟨rest, rfl⟩ := h
  cases parts with
  | nil => exact absurd rfl hne
  | cons part parts =>
      show (if part = ['/'] then parts else part :: parts) <+:
        if part = ['/'] then parts ++ rest else part :: (parts ++ rest)
      split
      · exact List.prefix_append parts rest
      · exact List.prefix_append (part :: parts) rest

/-- From the root it makes no difference whether the root is stripped. -/
theorem follow_mirrorRel (parts : List (List Char)) : follow [] (mirrorRel parts) = follow [] parts := by
  cases parts with
  | nil => rfl
  | cons part rest =>
      by_cases hroot : part = ['/']
      · subst hroot
        rfl
      · show follow [] (if part = ['/'] then rest else part :: rest) = _
        rw [if_neg hroot]

/-- **A directory is mirrored below any other.** -/
theorem follow_mirror {parts : List (List Char)} (h : staysBelow 0 (mirrorRel parts) = true)
    (dir : Place) : follow dir (mirrorRel parts) = dir ++ follow [] parts := by
  have hfollow := Path.follow_stays List.length_nil h dir
  rw [List.append_nil] at hfollow
  rw [hfollow, follow_mirrorRel]

theorem walkUp_spec {parts root : List (List Char)} (h : walkUp hasGit parts.reverse = some root) :
    root <+: parts ∧ root ≠ [] := by
  induction parts using List.reverseRecOn with
  | nil => cases h
  | append_singleton above last ih =>
      rw [List.reverse_append, List.reverse_singleton, List.singleton_append] at h
      unfold walkUp at h
      split at h
      · have hroot : above ++ [last] = root := by simpa using h
        rw [← hroot]
        exact ⟨List.prefix_refl _, by simp⟩
      · obtain ⟨hpre, hne⟩ := ih h
        exact ⟨hpre.trans (List.prefix_append above [last]), hne⟩

/-- The repository is above the directory, so that it stays below the root as well. -/
theorem repositoryRoot_stays {cwd : List Char} (h : staysBelow 0 (mirrorRel (components cwd)) = true) :
    staysBelow 0 (mirrorRel (repositoryRoot hasGit cwd)) = true := by
  unfold repositoryRoot gitRoot
  split
  · cases hroot : walkUp hasGit (components cwd).reverse with
    | none => exact h
    | some root =>
        obtain ⟨hpre, hne⟩ := walkUp_spec hroot
        obtain ⟨more, hmore⟩ := mirrorRel_prefix hne hpre
        rw [← hmore] at h
        exact Path.staysBelow_of_append h
  · exact h

variable (dataDir) in
theorem hostDir_eq {dest : List Char} (hne : dest ≠ []) (hname : dest ≠ ['.'] ∧ dest ≠ ['.', '.']) :
    hostDir dataDir dest = notesTreeRoot dataDir ++ ["remote".toList, sanitizeDest dest] := by
  have hremote : Plain "remote".toList := by decide
  unfold hostDir
  rw [Path.follow_name hremote, Path.follow_name (sanitizeDest_plain hne hname.1 hname.2),
    List.append_assoc]
  rfl

variable (hasGit) in
/-- The names that lead from the notes tree to a scope. -/
def scopeNames (ctx : NotesContext) : Scope → Option (List (List Char))
  | .global => some ["global".toList]
  | .host => ctx.remote.map fun dest => ["remote".toList, sanitizeDest dest]
  | .folder => (folderPlace hasGit ctx).map fun place =>
      match ctx.remote with
      | some dest => "remote".toList :: sanitizeDest dest :: place
      | none => "local".toList :: place

/-- **The directories of a context**, when nothing leads out of the tree. -/
theorem mem_scopes_of_noEscape (hr : Reported ctx) (h : NoEscape ctx) (s : ScopeInfo) :
    s ∈ scopes dataDir hasGit ctx ↔
      ∃ names, scopeNames hasGit ctx s.scope = some names ∧ s.dir = notesTreeRoot dataDir ++ names := by
  have hfound : s ∈ scopes dataDir hasGit ctx ↔ s ∈ foundScopes dataDir hasGit ctx :=
    (List.perm_insertionSort _ _).mem_iff
  rw [hfound]
  have hglobal : Plain "global".toList := by decide
  have hlocal : Plain "local".toList := by decide
  obtain ⟨cwd, remote⟩ := ctx
  obtain ⟨scope, dir⟩ := s
  unfold foundScopes scopeNames folderPlace
  rw [Path.follow_name hglobal, Path.follow_name hlocal]
  cases remote with
  | none =>
      cases cwd with
      | none => cases scope <;> simp
      | some cwd =>
          simp only [Option.toList_some, List.map_cons, List.map_nil]
          rw [follow_mirror (repositoryRoot_stays (h.stays cwd rfl))]
          cases scope <;> simp
  | some dest =>
      have hhost := hostDir_eq dataDir (hr.named dest rfl) (h.oneName dest rfl)
      cases cwd with
      | none =>
          simp only [Option.toList_none, List.map_nil]
          rw [hhost]
          cases scope <;> simp
      | some cwd =>
          simp only [Option.toList_some, List.map_cons, List.map_nil]
          rw [hhost, follow_mirror (h.stays cwd rfl)]
          cases scope <;> simp

/-! ## §5. Which contexts are kept apart. -/

variable (dataDir) in
/-- The directory of a scope that the context has. -/
theorem scope_mem (hr : Reported ctx) (h : NoEscape ctx) {scope : Scope} {names : List (List Char)}
    (hnames : scopeNames hasGit ctx scope = some names) :
    ⟨scope, notesTreeRoot dataDir ++ names⟩ ∈ scopes dataDir hasGit ctx :=
  (mem_scopes_of_noEscape hr h _).mpr ⟨names, hnames, rfl⟩

theorem scopeNames_ne_nil {scope : Scope} {names : List (List Char)}
    (h : scopeNames hasGit ctx scope = some names) : names ≠ [] := by
  rintro rfl
  unfold scopeNames at h
  cases scope with
  | global => cases h
  | host => simp at h
  | folder =>
      obtain ⟨place, -, hplace⟩ := Option.map_eq_some_iff.mp h
      split at hplace <;> cases hplace

/-- The names of a folder scope. -/
theorem scopeNames_folder {names : List (List Char)} (h : scopeNames hasGit ctx .folder = some names) :
    ∃ place, folderPlace hasGit ctx = some place ∧
      ((∃ dest, ctx.remote = some dest ∧ names = "remote".toList :: sanitizeDest dest :: place) ∨
        (ctx.remote = none ∧ names = "local".toList :: place)) := by
  obtain ⟨place, hplace, hnames⟩ := Option.map_eq_some_iff.mp h
  refine ⟨place, hplace, ?_⟩
  cases hremote : ctx.remote with
  | none =>
      rw [hremote] at hnames
      exact .inr ⟨rfl, hnames.symm⟩
  | some dest =>
      rw [hremote] at hnames
      exact .inl ⟨dest, rfl, hnames.symm⟩

/-- A remote folder is the directory of the context. -/
theorem folderPlace_remote {dest : List Char} (hremote : ctx.remote = some dest) {place : Place}
    (h : folderPlace hasGit ctx = some place) :
    ∃ cwd, ctx.cwd = some cwd ∧ place = follow [] (components cwd) := by
  obtain ⟨cwd, hcwd, hplace⟩ := Option.map_eq_some_iff.mp h
  rw [hremote] at hplace
  exact ⟨cwd, hcwd, hplace.symm⟩

/-- A folder is not the directory of a host, of this context or another. -/
theorem folder_ne_host (h : FolderBelowHost c) {names : List (List Char)}
    (hfolder : scopeNames hasGit c .folder = some names) :
    scopeNames hasGit c' .host ≠ some names := by
  intro hhost
  obtain ⟨dest', -, rfl⟩ := Option.map_eq_some_iff.mp hhost
  obtain ⟨place, hplace, ⟨dest, hremote, hnames⟩ | ⟨-, hnames⟩⟩ := scopeNames_folder hfolder
  · obtain ⟨cwd, hcwd, rfl⟩ := folderPlace_remote hremote hplace
    have hnil : follow [] (components cwd) = [] := by
      simpa using (List.cons.inj (List.cons.inj hnames).2).2.symm
    exact h cwd hcwd (by rw [hremote]; rfl) hnil
  · have hhead := (List.cons.inj hnames).1
    exact absurd hhead (by decide)

theorem global_ne_other {scope : Scope} (hscope : scope ≠ .global) :
    scopeNames hasGit c scope ≠ some ["global".toList] := by
  intro h
  cases scope with
  | global => exact hscope rfl
  | host =>
      obtain ⟨dest, -, hnames⟩ := Option.map_eq_some_iff.mp h
      exact absurd (List.cons.inj hnames).1 (by decide)
  | folder =>
      obtain ⟨place, -, ⟨dest, -, hnames⟩ | ⟨-, hnames⟩⟩ := scopeNames_folder h
      · exact absurd (List.cons.inj hnames).1 (by decide)
      · exact absurd (List.cons.inj hnames).1 (by decide)

/-- One context: different scopes have different names. -/
theorem scope_eq_of_names (h : FolderBelowHost ctx) {scope scope' : Scope} {names : List (List Char)}
    (hs : scopeNames hasGit ctx scope = some names) (hs' : scopeNames hasGit ctx scope' = some names) :
    scope = scope' := by
  have hglobal : ∀ other, scopeNames hasGit ctx other = scopeNames hasGit ctx .global → other = .global := by
    intro other hother
    by_contra hne
    exact global_ne_other hne hother
  cases scope with
  | global => exact (hglobal scope' (hs'.trans hs.symm)).symm
  | host =>
      cases scope' with
      | global => exact hglobal _ (hs.trans hs'.symm)
      | host => rfl
      | folder => exact absurd hs (folder_ne_host h hs')
  | folder =>
      cases scope' with
      | global => exact hglobal _ (hs.trans hs'.symm)
      | host => exact absurd hs' (folder_ne_host h hs)
      | folder => rfl

/-- Two contexts: the same names are of the same scope, unless destinations are confused. -/
theorem sameScope_of_names (h : FolderBelowHost c) (h' : FolderBelowHost c') (hc : ¬ Confused c c')
    {scope scope' : Scope} (hscope : scope ≠ .global) (hscope' : scope' ≠ .global)
    {names : List (List Char)} (hs : scopeNames hasGit c scope = some names)
    (hs' : scopeNames hasGit c' scope' = some names) : SameScope hasGit c c' scope scope' := by
  have hdest : ∀ {dest dest'}, c.remote = some dest → c'.remote = some dest' →
      sanitizeDest dest = sanitizeDest dest' → c.remote = c'.remote := by
    intro dest dest' hd hd' heq
    by_contra hne
    rw [hd, hd', Option.some_inj] at hne
    exact hc ⟨dest, dest', hd, hd', hne, (sanitizeDest_eq_iff dest dest').mp heq⟩
  cases scope with
  | global => exact absurd rfl hscope
  | host =>
      cases scope' with
      | global => exact absurd rfl hscope'
      | host =>
          obtain ⟨dest, hd, rfl⟩ := Option.map_eq_some_iff.mp hs
          obtain ⟨dest', hd', hnames⟩ := Option.map_eq_some_iff.mp hs'
          exact hdest hd hd' (List.cons.inj (List.cons.inj hnames).2).1.symm
      | folder => exact absurd hs (folder_ne_host h' hs')
  | folder =>
      cases scope' with
      | global => exact absurd rfl hscope'
      | host => exact absurd hs' (folder_ne_host h hs)
      | folder =>
          obtain ⟨place, hplace, hnames⟩ := scopeNames_folder hs
          obtain ⟨place', hplace', hnames'⟩ := scopeNames_folder hs'
          rcases hnames with ⟨dest, hd, rfl⟩ | ⟨hl, rfl⟩
          · rcases hnames' with ⟨dest', hd', heq⟩ | ⟨-, heq⟩
            · obtain ⟨heq, hp⟩ := List.cons.inj (List.cons.inj heq).2
              exact ⟨hdest hd hd' heq, by rw [hplace, hplace', hp]⟩
            · exact absurd (List.cons.inj heq).1 (by decide)
          · rcases hnames' with ⟨dest', -, heq⟩ | ⟨hl', heq⟩
            · exact absurd (List.cons.inj heq).1 (by decide)
            · exact ⟨hl.trans hl'.symm, by rw [hplace, hplace', (List.cons.inj heq).2]⟩

/-- A remote root directory makes the folder the host. -/
theorem folderBelowHost_of_different (hr : Reported ctx) (h : NoEscape ctx)
    (hdiff : ∀ s ∈ scopes dataDir hasGit ctx, ∀ s' ∈ scopes dataDir hasGit ctx,
      s.dir = s'.dir → s.scope = s'.scope) : FolderBelowHost ctx := by
  intro cwd hcwd hsome hroot
  obtain ⟨dest, hremote⟩ := Option.isSome_iff_exists.mp hsome
  have hcwd : ctx.cwd = some cwd := hcwd
  have hhost : scopeNames hasGit ctx .host = some ["remote".toList, sanitizeDest dest] := by
    unfold scopeNames
    rw [hremote]
    rfl
  have hfolder : scopeNames hasGit ctx .folder = some ["remote".toList, sanitizeDest dest] := by
    unfold scopeNames folderPlace
    rw [hcwd, hremote]
    simp [hroot]
  have heq := hdiff _ (scope_mem dataDir hr h hhost) _ (scope_mem dataDir hr h hfolder) rfl
  cases heq

/-- **Which contexts share no notes**: when no destination is `.` or `..` and no directory goes
above the root, exactly those of which no remote one is in the root directory and whose
destinations do not get one name. -/
theorem scopes_kept_apart_iff (hr : Reported c) (hr' : Reported c') (h : NoEscape c)
    (h' : NoEscape c') :
    KeptApart dataDir hasGit c c' ↔
      FolderBelowHost c ∧ FolderBelowHost c' ∧ ¬ Confused c c' := by
  constructor
  · intro hk
    refine ⟨folderBelowHost_of_different hr h (hk.different c List.mem_cons_self),
      folderBelowHost_of_different hr' h'
        (hk.different c' (List.mem_cons_of_mem _ List.mem_cons_self)), ?_⟩
    rintro ⟨dest, dest', hremote, hremote', hne, halike⟩
    have heq := (sanitizeDest_eq_iff dest dest').mpr halike
    have hhost : scopeNames hasGit c .host = some ["remote".toList, sanitizeDest dest] := by
      unfold scopeNames
      rw [hremote]
      rfl
    have hhost' : scopeNames hasGit c' .host = some ["remote".toList, sanitizeDest dest] := by
      unfold scopeNames
      rw [hremote', heq]
      rfl
    have hsame : c.remote = c'.remote := hk.shared _ (scope_mem dataDir hr h hhost) _
      (scope_mem dataDir hr' h' hhost') Scope.noConfusion Scope.noConfusion rfl
    rw [hremote, hremote'] at hsame
    exact hne (Option.some.inj hsame)
  · rintro ⟨hbelow, hbelow', hconfused⟩
    constructor
    · intro s hs
      have hnames : ∃ names, names ≠ [] ∧ s.dir = notesTreeRoot dataDir ++ names := by
        rcases List.mem_append.mp hs with hs | hs
        · obtain ⟨names, hn, hdir⟩ := (mem_scopes_of_noEscape hr h s).mp hs
          exact ⟨names, scopeNames_ne_nil hn, hdir⟩
        · obtain ⟨names, hn, hdir⟩ := (mem_scopes_of_noEscape hr' h' s).mp hs
          exact ⟨names, scopeNames_ne_nil hn, hdir⟩
      obtain ⟨names, hne, hdir⟩ := hnames
      rw [hdir]
      exact ⟨List.prefix_append _ names, fun heq => hne (List.append_right_eq_self.mp heq)⟩
    · have hone : ∀ ctx, Reported ctx → NoEscape ctx → FolderBelowHost ctx →
          ∀ s ∈ scopes dataDir hasGit ctx, ∀ s' ∈ scopes dataDir hasGit ctx,
            s.dir = s'.dir → s.scope = s'.scope := by
        intro ctx hrep hesc hbel s hs s' hs' heq
        obtain ⟨names, hn, hdir⟩ := (mem_scopes_of_noEscape hrep hesc s).mp hs
        obtain ⟨names', hn', hdir'⟩ := (mem_scopes_of_noEscape hrep hesc s').mp hs'
        rw [hdir, hdir'] at heq
        rw [← List.append_cancel_left heq] at hn'
        exact scope_eq_of_names hbel hn hn'
      intro ctx hctx
      rcases List.mem_cons.mp hctx with rfl | hctx
      · exact hone _ hr h hbelow
      · rw [List.mem_singleton.mp hctx]
        exact hone _ hr' h' hbelow'
    · intro s hs s' hs' hscope hscope' heq
      obtain ⟨names, hn, hdir⟩ := (mem_scopes_of_noEscape hr h s).mp hs
      obtain ⟨names', hn', hdir'⟩ := (mem_scopes_of_noEscape hr' h' s').mp hs'
      rw [hdir, hdir'] at heq
      rw [← List.append_cancel_left heq] at hn'
      exact sameScope_of_names hbelow hbelow' hconfused hscope hscope' hn hn'

/-- Two hosts, and a directory in which there is no repository. -/
theorem scopes_kept_apart_two_hosts :
    KeptApart ["data".toList] (fun _ => false) ⟨some "/srv/app".toList, some "u@one".toList⟩
        ⟨some "/srv/../srv".toList, some "u@two".toList⟩ := by
  refine (scopes_kept_apart_iff ⟨by decide, by decide⟩ ⟨by decide, by decide⟩
    ⟨by decide, by decide⟩ ⟨by decide, by decide⟩).mpr ⟨?_, ?_, ?_⟩
  · intro cwd hcwd _
    obtain rfl := Option.some.inj hcwd
    decide
  · intro cwd hcwd _
    obtain rfl := Option.some.inj hcwd
    decide
  · rintro ⟨dest, dest', hd, hd', -, halike⟩
    obtain rfl := Option.some.inj hd
    obtain rfl := Option.some.inj hd'
    have heq := (sanitizeDest_eq_iff _ _).mpr halike
    exact absurd heq (by decide)

/-- Notes that mix: of the destinations `a/b` and `a_b`; of the folder `/x` on the host `.` and
the host `x`; of the folder `/global` on the host `..` and all contexts; of the folder `/` on a
host and the host; and a local folder whose notes are outside the tree. -/
theorem notes_mix :
    ¬ KeptApart [] (fun _ => false) ⟨none, some "a/b".toList⟩ ⟨none, some "a_b".toList⟩ ∧
    ¬ KeptApart [] (fun _ => false) ⟨some "/x".toList, some ['.']⟩ ⟨none, some ['x']⟩ ∧
    ¬ KeptApart [] (fun _ => false) ⟨some "/global".toList, some "..".toList⟩ ⟨none, none⟩ ∧
    ¬ KeptApart [] (fun _ => false) ⟨some ['/'], some ['h']⟩ ⟨none, none⟩ ∧
    ¬ KeptApart [] (fun _ => false) ⟨some "/../../x".toList, none⟩ ⟨none, none⟩ := by
  refine ⟨fun h => ?_, fun h => ?_, fun h => ?_, fun h => ?_, fun h => ?_⟩
  · have hsame : some "a/b".toList = some "a_b".toList :=
      h.shared ⟨.host, notesTreeRoot [] ++ ["remote".toList, "a_b".toList]⟩ (by decide)
        ⟨.host, notesTreeRoot [] ++ ["remote".toList, "a_b".toList]⟩ (by decide)
        (by decide) (by decide) rfl
    exact absurd hsame (by decide)
  · exact h.shared ⟨.folder, notesTreeRoot [] ++ ["remote".toList, ['x']]⟩ (by decide)
      ⟨.host, notesTreeRoot [] ++ ["remote".toList, ['x']]⟩ (by decide) (by decide) (by decide) rfl
  · have heq := h.different _ List.mem_cons_self
      ⟨.folder, notesTreeRoot [] ++ ["global".toList]⟩ (by decide)
      ⟨.global, notesTreeRoot [] ++ ["global".toList]⟩ (by decide) rfl
    cases heq
  · have heq := h.different _ List.mem_cons_self
      ⟨.folder, notesTreeRoot [] ++ ["remote".toList, ['h']]⟩ (by decide)
      ⟨.host, notesTreeRoot [] ++ ["remote".toList, ['h']]⟩ (by decide) rfl
    cases heq
  · have hinside := h.inside ⟨.folder, ["jmux".toList, ['x']]⟩ (by decide)
    exact absurd hinside.1 (by decide)

end Jmux.Ui
