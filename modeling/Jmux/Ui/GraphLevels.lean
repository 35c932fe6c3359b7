/-
  Jmux.Ui.GraphLevels — the rows of the graph panel (`levels` of `ui/graph_panel.rs`).

  The panel draws the nodes of a plan in rows, by how far down their dependencies lead.
  The depths are computed by a recursion with a table of those that are known, which
  stops with zero beyond 64 calls inside each other and would keep what comes of it.

  Main results:
    * `depthOf_spec`          — within the guard, a call adds depths to the table and
                                 nothing else.
    * `levels_of_withinGuard` — the rows, when no chain of dependencies is longer than 64.
    * `levels_layered`        — every plan that is accepted is drawn in its layers.
-/
import Jmux.Goal.ProposalPlans
import Jmux.Lib.LongestChain

namespace Jmux.Ui

open Jmux.Lib Jmux.Goal

/-! ## §1. `levels`. -/

abbrev Depths := AList (fun _ : String => Nat)

/-- The pass over the dependencies of a node: each depth plus one, and the table. -/
def depthsOf (visit : String → Depths → Nat × Depths) : List String → Depths → List Nat × Depths
  | [], depth => ([], depth)
  | dep :: deps, depth =>
      let first := visit dep depth
      let rest := depthsOf visit deps first.2
      ((first.1 + 1) :: rest.1, rest.2)

/-- `depth_of`; the number is that of the calls inside each other that the guard still
lets through, `65 - guard`. -/
def depthOf (nodes : List GraphNode) : Nat → String → Depths → Nat × Depths
  | 0, _, depth => (0, depth)
  | left + 1, id, depth =>
      match depth.lookup id with
      | some d => (d, depth)
      | none =>
          let found := match nodes.find? (fun n => n.id = id) with
            | some n =>
                let deps := depthsOf (depthOf nodes left) n.deps depth
                (deps.1.max?.getD 0, deps.2)
            | none => (0, depth)
          (found.1, found.2.insert id found.1)

/-- The table after a call for every node. -/
def depths (nodes : List GraphNode) : Depths :=
  nodes.foldl (fun depth n => (depthOf nodes 65 n.id depth).2) ∅

/-- `out[d].push(id)`; `none` is a panic. -/
def pushAt (out : List (List String)) (d : Nat) (id : String) : Option (List (List String)) :=
  if d < out.length then some (out.modify d (· ++ [id])) else none

def maxDepth (depth : Depths) : Nat := (depth.entries.map (·.2)).max?.getD 0

def levelOf (depth : Depths) (n : GraphNode) : Nat := (depth.lookup n.id).getD 0

/-- Node ids grouped by dependency depth (level 0 first). -/
def levels (nodes : List GraphNode) : Option (List (List String)) :=
  let depth := depths nodes
  let out := nodes.foldlM (fun out n => pushAt out (levelOf depth n) n.id)
    (List.replicate (maxDepth depth + 1) [])
  out.map (·.filter (· ≠ []))

/-! ## §2. The layers of a plan. -/

/-- Node `a` lists `b` as a dependency. -/
def DependsOn (nodes : List GraphNode) (a b : String) : Prop := ∃ n ∈ nodes, n.id = a ∧ b ∈ n.deps

/-- The ids in rows, each in the row of its depth: as far from the first row as the longest
chain of dependencies below it is long. -/
structure Layered (nodes : List GraphNode) (rows : List (List String)) : Prop where
  partition : rows.flatten.Perm (nodes.map (·.id))
  distinct  : rows.flatten.Nodup
  filled    : ∀ row ∈ rows, row ≠ []
  depth     : ∀ (i : Nat) row, rows[i]? = some row → ∀ id ∈ row, IsDepth (DependsOn nodes) id i
  earlier   : ∀ (i : Nat) row, rows[i]? = some row → ∀ id ∈ row, ∀ dep, DependsOn nodes id dep →
    ∃ j : Nat, j < i ∧ ∃ row', rows[j]? = some row' ∧ dep ∈ row'

/-- What `levels` needs of a plan: no id twice, no unknown dependency, and no chain of
dependencies that is longer than the guard allows. -/
structure WithinGuard (nodes : List GraphNode) : Prop where
  distinct : (nodes.map (·.id)).Nodup
  known    : ∀ n ∈ nodes, ∀ dep ∈ n.deps, dep ∈ nodes.map (·.id)
  short    : ∀ id, ∀ n ∈ chainLengths (DependsOn nodes) id, n ≤ 64

section Depths

variable {nodes : List GraphNode} {depth depth' : Depths}

theorem dependsOn_iff (hnd : (nodes.map (·.id)).Nodup) {n : GraphNode} (hn : n ∈ nodes)
    (dep : String) : DependsOn nodes n.id dep ↔ dep ∈ n.deps := by
  constructor
  · rintro ⟨m, hm, hid, hdep⟩
    obtain rfl := List.inj_on_of_nodup_map hnd hm hn hid
    exact hdep
  · exact fun hdep => ⟨n, hn, rfl, hdep⟩

/-! ## §3. The table. -/

/-- What the table says is true. -/
def Correct (nodes : List GraphNode) (depth : Depths) : Prop :=
  ∀ id d, depth.lookup id = some d → IsDepth (DependsOn nodes) id d

/-- A table that is correct, with all the ids of the table before. -/
structure Grown (nodes : List GraphNode) (depth depth' : Depths) : Prop where
  correct : Correct nodes depth'
  kept    : ∀ id, id ∈ depth → id ∈ depth'

theorem Grown.refl (h : Correct nodes depth) : Grown nodes depth depth := ⟨h, fun _ hid => hid⟩

theorem Grown.trans {depth'' : Depths} (h : Grown nodes depth depth')
    (h' : Grown nodes depth' depth'') : Grown nodes depth depth'' :=
  ⟨h'.correct, fun id hid => h'.kept id (h.kept id hid)⟩

theorem Grown.insert (h : Grown nodes depth depth') {id : String} {d : Nat}
    (hd : IsDepth (DependsOn nodes) id d) : Grown nodes depth (depth'.insert id d) where
  correct a n hn := by
    rw [AList.lookup_insert_eq_ite] at hn
    by_cases ha : a = id
    · rw [if_pos ha] at hn
      rw [ha, ← Option.some.inj hn]
      exact hd
    · rw [if_neg ha] at hn
      exact h.correct a n hn
  kept a ha := (AList.mem_insert _).mpr (Or.inr (h.kept a ha))

/-- The pass over dependencies, when each visit gives the depth. -/
theorem depthsOf_spec {visit : String → Depths → Nat × Depths} {deps : List String}
    (hvisit : ∀ dep ∈ deps, ∀ depth, Correct nodes depth →
      IsDepth (DependsOn nodes) dep (visit dep depth).1 ∧ Grown nodes depth (visit dep depth).2)
    (hcorrect : Correct nodes depth) :
    Grown nodes depth (depthsOf visit deps depth).2 ∧
    (∀ d ∈ (depthsOf visit deps depth).1, ∃ dep ∈ deps, ∃ n, d = n + 1 ∧
      IsDepth (DependsOn nodes) dep n) ∧
    ∀ dep ∈ deps, ∃ n, n + 1 ∈ (depthsOf visit deps depth).1 ∧ IsDepth (DependsOn nodes) dep n := by
  induction deps generalizing depth with
  | nil =>
      refine ⟨Grown.refl hcorrect, fun d hd => absurd hd List.not_mem_nil, fun dep hdep => ?_⟩
      exact absurd hdep List.not_mem_nil
  | cons first deps ih =>
      obtain ⟨hfirst, hgrown⟩ := hvisit first List.mem_cons_self depth hcorrect
      obtain ⟨hrest, hsound, hall⟩ := ih
        (fun dep hdep => hvisit dep (List.mem_cons_of_mem first hdep)) hgrown.correct
      refine ⟨hgrown.trans hrest, fun d hd => ?_, fun dep hdep => ?_⟩
      · rcases List.mem_cons.mp hd with rfl | hd
        · exact ⟨first, List.mem_cons_self, _, rfl, hfirst⟩
        · obtain ⟨dep, hdep, hn⟩ := hsound d hd
          exact ⟨dep, List.mem_cons_of_mem first hdep, hn⟩
      · rcases List.mem_cons.mp hdep with rfl | hdep
        · exact ⟨_, List.mem_cons_self, hfirst⟩
        · obtain ⟨n, hn, hdepth⟩ := hall dep hdep
          exact ⟨n, List.mem_cons_of_mem _ hn, hdepth⟩

/-- **A call within the guard** gives the depth, and the table grows by depths. -/
theorem depthOf_spec (hnd : (nodes.map (·.id)).Nodup) {left : Nat} {id : String}
    (hshort : ∀ n ∈ chainLengths (DependsOn nodes) id, n < left) (hcorrect : Correct nodes depth) :
    IsDepth (DependsOn nodes) id (depthOf nodes left id depth).1 ∧
    Grown nodes depth (depthOf nodes left id depth).2 ∧ id ∈ (depthOf nodes left id depth).2 := by
  induction left generalizing id depth with
  | zero => exact absurd (hshort 0 (zero_mem_chainLengths _ id)) (Nat.not_lt_zero 0)
  | succ left ih =>
      unfold depthOf
      cases hlookup : depth.lookup id with
      | some d =>
          refine ⟨hcorrect id d hlookup, Grown.refl hcorrect, ?_⟩
          exact AList.lookup_isSome.mp (Option.isSome_iff_exists.mpr ⟨d, hlookup⟩)
      | none =>
          cases hfind : nodes.find? (fun n => n.id = id) with
          | none =>
              -- an id without a node has nothing below it
              have hdepth : IsDepth (DependsOn nodes) id 0 := by
                refine @isDepth_of_below _ _ id [] (fun d hd => absurd hd List.not_mem_nil) ?_
                rintro dep ⟨n, hn, hid, -⟩
                exact absurd (decide_eq_true hid) (List.find?_eq_none.mp hfind n hn)
              exact ⟨hdepth, (Grown.refl hcorrect).insert hdepth,
                (AList.mem_insert _).mpr (Or.inl rfl)⟩
          | some n =>
              obtain ⟨hn, rfl⟩ := (List.find?_key_eq_some hnd).mp hfind
              have hdeps := dependsOn_iff hnd hn
              have hvisit : ∀ dep ∈ n.deps, ∀ depth, Correct nodes depth →
                  IsDepth (DependsOn nodes) dep (depthOf nodes left dep depth).1 ∧
                  Grown nodes depth (depthOf nodes left dep depth).2 := by
                intro dep hdep depth hcorrect
                have hbelow : ∀ m ∈ chainLengths (DependsOn nodes) dep, m < left := by
                  intro m hm
                  have hlong := hshort (m + 1)
                    (succ_mem_chainLengths_iff.mpr ⟨dep, (hdeps dep).mpr hdep, hm⟩)
                  omega
                obtain ⟨hdepth, hgrown, -⟩ := ih hbelow hcorrect
                exact ⟨hdepth, hgrown⟩
              obtain ⟨hgrown, hsound, hall⟩ := depthsOf_spec hvisit hcorrect
              have hdepth : IsDepth (DependsOn nodes) n.id
                  ((depthsOf (depthOf nodes left) n.deps depth).1.max?.getD 0) := by
                refine isDepth_of_below (fun d hd => ?_) fun dep hdep => ?_
                · obtain ⟨dep, hdep, m, hm⟩ := hsound d hd
                  exact ⟨dep, m, (hdeps dep).mpr hdep, hm⟩
                · exact hall dep ((hdeps dep).mp hdep)
              exact ⟨hdepth, hgrown.insert hdepth, (AList.mem_insert _).mpr (Or.inl rfl)⟩

theorem foldl_depthOf (hnd : (nodes.map (·.id)).Nodup) {left : Nat}
    (hshort : ∀ id, ∀ n ∈ chainLengths (DependsOn nodes) id, n < left) (ns : List GraphNode)
    (hcorrect : Correct nodes depth) :
    Grown nodes depth (ns.foldl (fun depth n => (depthOf nodes left n.id depth).2) depth) ∧
    ∀ n ∈ ns, n.id ∈ ns.foldl (fun depth n => (depthOf nodes left n.id depth).2) depth := by
  induction ns generalizing depth with
  | nil => exact ⟨Grown.refl hcorrect, fun n hn => absurd hn List.not_mem_nil⟩
  | cons first ns ih =>
      obtain ⟨-, hgrown, hmem⟩ := depthOf_spec hnd (hshort first.id) hcorrect
      obtain ⟨hrest, hall⟩ := ih hgrown.correct
      rw [List.foldl_cons]
      refine ⟨hgrown.trans hrest, fun n hn => ?_⟩
      rcases List.mem_cons.mp hn with rfl | hn
      · exact hrest.kept n.id hmem
      · exact hall n hn

/-- The table at the end: true, and with every node in it. -/
theorem depths_spec (h : WithinGuard nodes) :
    Correct nodes (depths nodes) ∧ ∀ n ∈ nodes, n.id ∈ depths nodes := by
  have hstart : Correct nodes ∅ := by
    intro id d hd
    rw [AList.lookup_empty] at hd
    exact nomatch hd
  have hshort : ∀ id, ∀ n ∈ chainLengths (DependsOn nodes) id, n < 65 := fun id n hn =>
    Nat.lt_succ_of_le (h.short id n hn)
  obtain ⟨hgrown, hmem⟩ := foldl_depthOf h.distinct hshort nodes hstart
  exact ⟨hgrown.correct, hmem⟩

theorem levelOf_spec (h : WithinGuard nodes) {n : GraphNode} (hn : n ∈ nodes) :
    IsDepth (DependsOn nodes) n.id (levelOf (depths nodes) n) ∧
    levelOf (depths nodes) n ≤ maxDepth (depths nodes) := by
  obtain ⟨hcorrect, hall⟩ := depths_spec h
  obtain ⟨d, hd⟩ := Option.isSome_iff_exists.mp (AList.lookup_isSome.mpr (hall n hn))
  have hlevel : levelOf (depths nodes) n = d := by
    unfold levelOf
    rw [hd]
    rfl
  rw [hlevel]
  refine ⟨hcorrect n.id d hd, List.le_max?_getD_of_mem ?_⟩
  exact List.mem_map.mpr ⟨_, AList.mem_lookup_iff.mp hd, rfl⟩

/-- A depth in the table that is not zero is the depth of a node. -/
theorem exists_of_maxDepth (h : WithinGuard nodes) {d : Nat}
    (hmax : maxDepth (depths nodes) = d + 1) : ∃ n ∈ nodes, levelOf (depths nodes) n = d + 1 := by
  have hentry : d + 1 ∈ (depths nodes).entries.map (·.2) := by
    unfold maxDepth at hmax
    cases hlist : ((depths nodes).entries.map (·.2)).max? with
    | none =>
        rw [hlist] at hmax
        exact nomatch hmax
    | some m =>
        rw [hlist] at hmax
        exact hmax ▸ List.max?_mem hlist
  obtain ⟨⟨id, m⟩, hmem, hm⟩ := List.mem_map.mp hentry
  have htop := (depths_spec h).1 id (d + 1) (hm ▸ AList.mem_lookup_iff.mpr hmem)
  -- there is something below it, so that the id is a node's
  obtain ⟨dep, ⟨n, hn, rfl, -⟩, -⟩ := htop.exists_below
  exact ⟨n, hn, (levelOf_spec h hn).1.unique htop⟩

/-- A dependency of a node is a node, and so are its own. -/
theorem mem_ids_of_reach (h : WithinGuard nodes) {a b : String} (ha : a ∈ nodes.map (·.id))
    (hab : Relation.ReflTransGen (DependsOn nodes) a b) : b ∈ nodes.map (·.id) := by
  induction hab with
  | refl => exact ha
  | tail _ hstep _ =>
      obtain ⟨n, hn, -, hdep⟩ := hstep
      exact h.known n hn _ hdep

/-- **No depth is left out**, up to the greatest one. -/
theorem le_maxDepth_iff (h : WithinGuard nodes) (hsome : nodes ≠ []) (i : Nat) :
    i ≤ maxDepth (depths nodes) ↔ ∃ n ∈ nodes, levelOf (depths nodes) n = i := by
  constructor
  · intro hi
    have htop : ∃ n ∈ nodes, levelOf (depths nodes) n = maxDepth (depths nodes) := by
      cases hmax : maxDepth (depths nodes) with
      | zero =>
          obtain ⟨first, hfirst⟩ := List.exists_mem_of_ne_nil nodes hsome
          have hle := (levelOf_spec h hfirst).2
          exact ⟨first, hfirst, by omega⟩
      | succ d => exact exists_of_maxDepth h hmax
    obtain ⟨top, htop, hmax⟩ := htop
    obtain ⟨id, hreach, hdepth⟩ := (levelOf_spec h htop).1.exists_of_le (hmax ▸ hi)
    obtain ⟨n, hn, rfl⟩ := List.mem_map.mp (mem_ids_of_reach h (List.mem_map_of_mem htop) hreach)
    exact ⟨n, hn, (levelOf_spec h hn).1.unique hdepth⟩
  · rintro ⟨n, hn, rfl⟩
    exact (levelOf_spec h hn).2

end Depths

/-! ## §4. The rows. -/

section Rows

variable {nodes : List GraphNode}

theorem pushAt_rows {count d : Nat} (hd : d < count) (row : Nat → List String) (id : String) :
    pushAt ((List.range count).map row) d id =
      some ((List.range count).map fun i => if i = d then row i ++ [id] else row i) := by
  have hlength : d < ((List.range count).map row).length := by simpa using hd
  unfold pushAt
  rw [if_pos hlength, Option.some.injEq]
  refine List.ext_getElem? fun i => ?_
  rw [List.getElem?_modify, List.getElem?_map, List.getElem?_map]
  by_cases hi : i < count
  · rw [List.getElem?_range hi]
    by_cases hid : i = d
    · simp [hid]
    · simp [hid, Ne.symm hid]
  · rw [List.getElem?_eq_none (by simpa using hi)]
    rfl

/-- **The pushes**: each row gets its nodes in their order, and none is out of bounds. -/
theorem foldlM_pushAt {rank : GraphNode → Nat} {count : Nat} {ns : List GraphNode}
    (hrank : ∀ n ∈ ns, rank n < count) (row : Nat → List String) :
    ns.foldlM (fun out n => pushAt out (rank n) n.id) ((List.range count).map row) =
      some ((List.range count).map fun i => row i ++ (ns.filter (rank · = i)).map (·.id)) := by
  induction ns generalizing row with
  | nil => simp
  | cons n ns ih =>
      rw [List.foldlM_cons, pushAt_rows (hrank n List.mem_cons_self)]
      show List.foldlM _ _ ns = _
      rw [ih (fun m hm => hrank m (List.mem_cons_of_mem n hm))]
      refine congrArg some (List.map_congr_left fun i _ => ?_)
      by_cases hi : i = rank n
      · rw [if_pos hi, List.filter_cons_of_pos (by simp [hi]), List.map_cons, List.append_assoc]
        rfl
      · rw [if_neg hi, List.filter_cons_of_neg (by simpa using Ne.symm hi)]

/-- The ids in rows by a rank of their nodes. -/
def rowsBy (nodes : List GraphNode) (rank : GraphNode → Nat) (count : Nat) : List (List String) :=
  (List.range count).map fun i => (nodes.filter (rank · = i)).map (·.id)

theorem mem_row_iff {rank : GraphNode → Nat} {i : Nat} {id : String} :
    id ∈ (nodes.filter (rank · = i)).map (·.id) ↔ ∃ n ∈ nodes, rank n = i ∧ n.id = id := by
  simp [and_assoc]

theorem mem_rowsBy {rank : GraphNode → Nat} {count i : Nat} {row : List String}
    (hrow : (rowsBy nodes rank count)[i]? = some row) (id : String) :
    id ∈ row ↔ ∃ n ∈ nodes, rank n = i ∧ n.id = id := by
  unfold rowsBy at hrow
  rw [List.getElem?_map] at hrow
  obtain ⟨j, hj, rfl⟩ := Option.map_eq_some_iff.mp hrow
  obtain ⟨hlt, hij⟩ := List.getElem?_eq_some_iff.mp hj
  rw [List.getElem_range] at hij
  rw [hij]
  exact mem_row_iff

theorem exists_rowsBy {rank : GraphNode → Nat} {count : Nat} {n : GraphNode} (hn : n ∈ nodes)
    (hlt : rank n < count) :
    ∃ row, (rowsBy nodes rank count)[rank n]? = some row ∧ n.id ∈ row := by
  have hmem : n.id ∈ (nodes.filter (rank · = rank n)).map (·.id) :=
    mem_row_iff.mpr ⟨n, hn, rfl, rfl⟩
  refine ⟨_, ?_, hmem⟩
  unfold rowsBy
  rw [List.getElem?_map, List.getElem?_range hlt]
  rfl

theorem nodup_flatten_rowsBy (hnd : (nodes.map (·.id)).Nodup) (rank : GraphNode → Nat)
    (count : Nat) : (rowsBy nodes rank count).flatten.Nodup := by
  refine List.nodup_flatten.mpr ⟨fun row hrow => ?_, ?_⟩
  · obtain ⟨i, -, rfl⟩ := List.mem_map.mp hrow
    exact hnd.sublist (List.filter_sublist.map _)
  · unfold rowsBy
    rw [List.pairwise_map]
    refine List.nodup_range.imp fun {i j} hij id hi hj => ?_
    -- one node is in one row
    obtain ⟨n, hn, hni, hid⟩ := mem_row_iff.mp hi
    obtain ⟨m, hm, hmj, rfl⟩ := mem_row_iff.mp hj
    obtain rfl := List.inj_on_of_nodup_map hnd hn hm hid
    exact hij (hni.symm.trans hmj)

theorem perm_flatten_rowsBy (hnd : (nodes.map (·.id)).Nodup) {rank : GraphNode → Nat} {count : Nat}
    (hlt : ∀ n ∈ nodes, rank n < count) :
    (rowsBy nodes rank count).flatten.Perm (nodes.map (·.id)) := by
  refine (List.perm_ext_iff_of_nodup (nodup_flatten_rowsBy hnd rank count) hnd).mpr fun id => ?_
  constructor
  · intro hid
    obtain ⟨row, hmem, hid⟩ := List.mem_flatten.mp hid
    obtain ⟨i, hi⟩ := List.mem_iff_getElem?.mp hmem
    obtain ⟨n, hn, -, rfl⟩ := (mem_rowsBy hi id).mp hid
    exact List.mem_map_of_mem hn
  · intro hid
    obtain ⟨n, hn, rfl⟩ := List.mem_map.mp hid
    obtain ⟨row, hget, hmem⟩ := exists_rowsBy hn (hlt n hn)
    exact List.mem_flatten.mpr ⟨row, List.mem_of_getElem? hget, hmem⟩

theorem rowsBy_filled {rank : GraphNode → Nat} {count : Nat}
    (hfilled : ∀ i < count, ∃ n ∈ nodes, rank n = i) : ∀ row ∈ rowsBy nodes rank count, row ≠ [] := by
  intro row hrow
  obtain ⟨i, hi, rfl⟩ := List.mem_map.mp hrow
  obtain ⟨n, hn, hni⟩ := hfilled i (List.mem_range.mp hi)
  exact List.ne_nil_of_mem (mem_row_iff.mpr ⟨n, hn, hni, rfl⟩)

/-- **Rows by the depth are the layers.** -/
theorem layered_rowsBy (h : WithinGuard nodes) {rank : GraphNode → Nat} {count : Nat}
    (hrank : ∀ n ∈ nodes, IsDepth (DependsOn nodes) n.id (rank n))
    (hlt : ∀ n ∈ nodes, rank n < count) (hfilled : ∀ i < count, ∃ n ∈ nodes, rank n = i) :
    Layered nodes (rowsBy nodes rank count) where
  partition := perm_flatten_rowsBy h.distinct hlt
  distinct := nodup_flatten_rowsBy h.distinct rank count
  filled := rowsBy_filled hfilled
  depth i row hi id hid := by
    obtain ⟨n, hn, rfl, rfl⟩ := (mem_rowsBy hi id).mp hid
    exact hrank n hn
  earlier i row hi id hid dep hdep := by
    obtain ⟨n, hn, rfl, rfl⟩ := (mem_rowsBy hi id).mp hid
    have hknown := h.known n hn dep ((dependsOn_iff h.distinct hn dep).mp hdep)
    obtain ⟨m, hm, rfl⟩ := List.mem_map.mp hknown
    obtain ⟨row', hget, hmem⟩ := exists_rowsBy hm (hlt m hm)
    exact ⟨rank m, (hrank n hn).lt (hrank m hm) hdep, row', hget, hmem⟩

/-- The rows of the panel: one for each depth, with the nodes of that depth in their order. -/
theorem levels_rows (h : WithinGuard nodes) (hsome : nodes ≠ []) :
    levels nodes =
      some (rowsBy nodes (levelOf (depths nodes)) (maxDepth (depths nodes) + 1)) := by
  have hpushes := foldlM_pushAt (fun n hn => Nat.lt_succ_of_le (levelOf_spec h hn).2) fun _ => []
  have hreplicate : List.replicate (maxDepth (depths nodes) + 1) [] =
      (List.range (maxDepth (depths nodes) + 1)).map fun _ => ([] : List String) := by simp
  have hfilled := rowsBy_filled fun i hi =>
    (le_maxDepth_iff h hsome i).mp (Nat.le_of_lt_succ hi)
  unfold levels
  dsimp only
  rw [hreplicate, hpushes]
  refine congrArg some (List.filter_eq_self.mpr fun row hrow => ?_)
  exact decide_eq_true (hfilled row hrow)

/-- **Within the guard** the panel draws the layers. -/
theorem levels_of_withinGuard (h : WithinGuard nodes) (hsome : nodes ≠ []) :
    ∃ rows, levels nodes = some rows ∧ Layered nodes rows := by
  refine ⟨_, levels_rows h hsome, layered_rowsBy h (fun n hn => (levelOf_spec h hn).1)
    (fun n hn => Nat.lt_succ_of_le (levelOf_spec h hn).2) fun i hi => ?_⟩
  exact (le_maxDepth_iff h hsome i).mp (Nat.le_of_lt_succ hi)

end Rows

/-! ## §5. Accepted plans. -/

theorem dependsOn_plan (p : Proposal) (a b : String) :
    DependsOn (p.nodes.map (·.toGraphNode)) a b ↔ p.DependsOn a b := by
  constructor
  · rintro ⟨n, hn, hid, hdep⟩
    obtain ⟨m, hm, rfl⟩ := List.mem_map.mp hn
    exact ⟨m, hm, hid, hdep⟩
  · rintro ⟨m, hm, hid, hdep⟩
    exact ⟨m.toGraphNode, List.mem_map_of_mem hm, hid, hdep⟩

/-- A plan of fifty nodes without a cycle is within the guard. -/
theorem withinGuard_of_wellFormed {p : Proposal} (h : p.WellFormed) :
    WithinGuard (p.nodes.map (·.toGraphNode)) := by
  have hids : (p.nodes.map (·.toGraphNode)).map (·.id) = p.ids :=
    ProposalNode.ids_toGraphNode p.nodes
  have hknown : ∀ n ∈ p.nodes.map (·.toGraphNode), ∀ dep ∈ n.deps, dep ∈ p.ids := by
    intro n hn dep hdep
    obtain ⟨m, hm, rfl⟩ := List.mem_map.mp hn
    obtain ⟨-, k, hk, rfl⟩ := h.known m hm dep hdep
    exact List.mem_map_of_mem hk
  refine ⟨hids ▸ h.distinct, hids ▸ hknown, fun id n hn => ?_⟩
  have hacyclic : ∀ a, ¬ Relation.TransGen (DependsOn (p.nodes.map (·.toGraphNode))) a a := by
    intro a hcycle
    exact h.acyclic a (Relation.TransGen.mono (fun b c => (dependsOn_plan p b c).mp) a a hcycle)
  have hlong := length_le_of_acyclic hacyclic
    (fun a b ⟨m, hm, _, hdep⟩ => hknown m hm b hdep) hn
  have hcount : p.ids.length = p.nodes.length := List.length_map _
  have hfew := h.few
  omega

/-- **Graph layering is sound**: the plans that `parse_proposal` accepts are drawn with each
node in the row of its depth, its dependencies in earlier rows, and no row empty. -/
theorem levels_layered {file : ProposalFile} {nodes : List GraphNode}
    (h : parseProposal file = .ok nodes) : ∃ rows, levels nodes = some rows ∧ Layered nodes rows := by
  obtain ⟨p, rfl⟩ : ∃ p, file = .ok (.ok p) := by
    match file with
    | .error e => exact nomatch h
    | .ok (.error e) => exact nomatch h
    | .ok (.ok p) => exact ⟨p, rfl⟩
  obtain ⟨hplan, rfl⟩ := (parseProposal_ok_iff nodes).mp h
  refine levels_of_withinGuard (withinGuard_of_wellFormed hplan) fun hempty => ?_
  have hsome := hplan.some
  rw [List.map_eq_nil_iff.mp hempty] at hsome
  exact absurd hsome (by decide)

/-- Two tasks between a first and a last one, the last one listed first. -/
def diamondPlan : Proposal where
  nodes :=
    [ { id := "join", goal := "join", deps := ["left", "right"] },
      { id := "left", goal := "left", deps := ["start"] },
      { id := "right", goal := "right", deps := ["start"] },
      { id := "start", goal := "start" } ]

theorem levels_layered_diamond :
    ∃ rows, levels (diamondPlan.nodes.map (·.toGraphNode)) = some rows ∧
      Layered (diamondPlan.nodes.map (·.toGraphNode)) rows :=
  @levels_layered (.ok (.ok diamondPlan)) _ (by decide)

example : levels (diamondPlan.nodes.map (·.toGraphNode)) =
    some [["start"], ["left", "right"], ["join"]] := by
  decide

end Jmux.Ui
