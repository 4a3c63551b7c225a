import FormFlow.Proofs.Seats
import FormFlow.Proofs.Recompute
/-!
Labels identify the nodes of a workflow.

A label is made of a stem for the kind, a number and a level. Stems and digits hold no underscore, so the three can be
read back (`labelText_injective`). Nodes are labelled along the run, and each is numbered one past those of its kind and
level before it: the numbers of one kind and level count from one in the order of the nodes (`map_filter_labelled`), and
no label is given twice (`labels_nodup`). The guards of each Path are numbered likewise.
-/

set_option autoImplicit false

namespace FormFlow

/-! ## The text of a label -/

namespace Kind

theorem labelStem_injective {a b : Kind} (h : a.labelStem = b.labelStem) : a = b := by
  cases a <;> cases b <;> first | rfl | exact absurd h (by decide)

theorem underscore_not_mem_labelStem (k : Kind) : '_' ∉ k.labelStem.toList := by
  cases k <;> decide

end Kind

namespace Placement

/-- The label of the node of a number among those of its kind and level. -/
def labelText (kind : Kind) (number level : Nat) : String :=
  kind.labelStem ++ "_" ++ toString number ++ "_Level" ++ toString level

theorem underscore_not_mem_toString (n : Nat) : '_' ∉ (toString n).toList := by
  intro h
  rw [Nat.toString_eq_repr, Nat.toList_repr] at h
  exact absurd (Nat.isDigit_of_mem_toDigits (by decide) (by decide) h) (by decide)

/-- The part before the first underscore and the part after it are told by the whole. -/
theorem append_underscore_inj {a a' b b' : List Char} (ha : '_' ∉ a) (ha' : '_' ∉ a')
    (h : a ++ '_' :: b = a' ++ '_' :: b') : a = a' ∧ b = b' := by
  have hfront : ∀ {a b : List Char}, '_' ∉ a → (a ++ '_' :: b).takeWhile (· ≠ '_') = a := by
    intro a b ha
    rw [List.takeWhile_append_of_pos fun c hc => by simpa using ne_of_mem_of_not_mem hc ha]
    simp
  obtain rfl : a = a' := by rw [← hfront (b := b) ha, h, hfront ha']
  exact ⟨rfl, List.tail_eq_of_cons_eq (List.append_cancel_left h)⟩

theorem toString_injective {m n : Nat} (h : (toString m).toList = (toString n).toList) : m = n := by
  have hread : ∀ n : Nat, Nat.ofDigitChars 10 (toString n).toList 0 = n := fun n => by
    rw [Nat.toString_eq_repr, Nat.toList_repr, Nat.ofDigitChars_ten_toDigits]
  rw [← hread m, h, hread]

/-- **The kind, the number and the level of a node can be read off its label.** -/
theorem labelText_injective {k k' : Kind} {i i' l l' : Nat} (h : labelText k i l = labelText k' i' l') :
    k = k' ∧ i = i' ∧ l = l' := by
  have hchars : ∀ k i l, (labelText k i l).toList =
      k.labelStem.toList ++ '_' :: ((toString i).toList ++ '_' :: ("Level".toList ++ (toString l).toList)) := by
    intro k i l
    simp [labelText]
  have h := congrArg String.toList h
  rw [hchars, hchars] at h
  obtain ⟨hstem, h⟩ :=
    append_underscore_inj k.underscore_not_mem_labelStem k'.underscore_not_mem_labelStem h
  obtain ⟨hnumber, h⟩ := append_underscore_inj (underscore_not_mem_toString i) (underscore_not_mem_toString i') h
  exact ⟨Kind.labelStem_injective (String.toList_inj.mp hstem), toString_injective hnumber,
    toString_injective (List.append_cancel_left h)⟩

/-! ## Labels along the seats -/

theorem labelAfter_eq (earlier : List Seat) (s : Seat) :
    labelAfter earlier s = labelText s.node.kind
      (earlier.countP (fun t => t.level == s.level && t.node.kind == s.node.kind) + 1) s.level := rfl

/-- Every entry is that of a seat, and comes after all seats before the list and those before it in the list. -/
theorem exists_of_mem_labelled {earlier seats : List Seat} {entry : String × Placement}
    (h : entry ∈ labelled earlier seats) :
    ∃ before, ∃ t ∈ seats, earlier <+: before ∧ entry = entryAfter before t := by
  induction seats generalizing earlier with
  | nil => cases h
  | cons s seats ih =>
    rcases List.mem_cons.mp h with rfl | h
    · exact ⟨earlier, s, List.mem_cons_self, List.prefix_rfl, rfl⟩
    · obtain ⟨before, t, ht, hbefore, hentry⟩ := ih h
      exact ⟨before, t, List.mem_cons_of_mem _ ht, (List.prefix_append _ _).trans hbefore, hentry⟩

/-- **No label is given twice.** A label that comes later has another kind, another level or a greater number. -/
theorem labels_nodup (earlier seats : List Seat) :
    ((labelled earlier seats).map fun entry => entry.2.label).Nodup := by
  induction seats generalizing earlier with
  | nil => exact List.nodup_nil
  | cons s seats ih =>
    rw [labelled, List.map_cons]
    refine List.nodup_cons.mpr ⟨fun hmem => ?_, ih _⟩
    obtain ⟨entry, hentry, hlabel⟩ := List.mem_map.mp hmem
    obtain ⟨before, t, -, hbefore, rfl⟩ := exists_of_mem_labelled hentry
    obtain ⟨hkind, hnumber, hlevel⟩ := labelText_injective hlabel
    have hcount := hbefore.sublist.countP_le (p := fun u => u.level == s.level && u.node.kind == s.node.kind)
    rw [hkind, hlevel] at hnumber
    simp only [List.countP_append, List.countP_singleton, beq_self_eq_true, Bool.and_self, if_true] at hcount
    omega

/-- **The nodes that pass a test are numbered from one**, after those of them that came earlier, if each is numbered one
past those before it. -/
theorem map_filter_labelled {p : Seat → Bool} {q : String × Placement → Bool} {shown : String × Placement → String}
    {text : Nat → String} (earlier : List Seat) {seats : List Seat}
    (hq : ∀ t ∈ seats, ∀ before, q (entryAfter before t) = p t)
    (hshown : ∀ t ∈ seats, p t = true → ∀ before, shown (entryAfter before t) = text (before.countP p + 1)) :
    ((labelled earlier seats).filter q).map shown =
      (List.range' (earlier.countP p + 1) (seats.countP p)).map text := by
  induction seats generalizing earlier with
  | nil => rfl
  | cons t seats ih =>
    have hrest := ih (earlier ++ [t]) (fun u hu => hq u (List.mem_cons_of_mem _ hu))
      fun u hu => hshown u (List.mem_cons_of_mem _ hu)
    have hentry : labelled earlier (t :: seats) = entryAfter earlier t :: labelled (earlier ++ [t]) seats := rfl
    have htest := hq t List.mem_cons_self earlier
    rw [List.countP_append, List.countP_singleton] at hrest
    rw [hentry]
    by_cases hp : p t = true
    · rw [if_pos hp] at hrest
      rw [List.filter_cons_of_pos (htest.trans hp), List.map_cons, hshown t List.mem_cons_self hp, hrest,
        List.countP_cons_of_pos hp, List.range'_succ, List.map_cons]
    · rw [if_neg hp, Nat.add_zero] at hrest
      rw [List.filter_cons_of_neg (htest ▸ hp), hrest, List.countP_cons_of_neg hp]

end Placement

namespace Store

open Placement (labelText)

variable {s : Store}

/-! ## Labels of a workflow -/

/-- The Path that a node guards, if it is there and guards one. -/
def guardedPath? (s : Store) (id : String) : Option String := (s.node? id).bind fun n => n.config.guardedPath

/-- The texts count from one: they are `text 1`, `text 2`, and so on. -/
def CountsUp (text : Nat → String) (texts : List String) : Prop := texts = (List.range' 1 texts.length).map text

/-- The placements label the nodes: they list every node once and by its order, no two nodes have one label, and the
labels count up among the nodes of each kind and level, as the display labels do among the guards of each Path. -/
structure Labels (s : Store) (placements : List (String × Placement)) : Prop where
  names : (placements.map (·.1)).Perm s.ids
  ascending : placements.Pairwise fun a b => a.2.order < b.2.order
  distinct : (placements.map fun entry => entry.2.label).Nodup
  siblings : ∀ kind level, CountsUp (fun number => labelText kind number level)
    ((placements.filter fun entry => s.kind? entry.1 == some kind && entry.2.level == level).map
      fun entry => entry.2.label)
  branches : ∀ path, CountsUp (fun number => "Condition " ++ toString number)
    ((placements.filter fun entry => s.guardedPath? entry.1 == some path).map fun entry => entry.2.displayLabel)

theorem CountsUp.of_range {text : Nat → String} {texts : List String} {count : Nat}
    (h : texts = (List.range' 1 count).map text) : CountsUp text texts := by
  have hlength := congrArg List.length h
  rw [List.length_map, List.length_range'] at hlength
  rw [CountsUp, hlength, h]

/-- **Labels identify the nodes.** Every store that can be built and that the check accepts is placed, and its
placements label it. -/
theorem Built.exists_labels (hs : s.Built) (hcheck : s.checkStructure = .ok ()) :
    ∃ placements, Placement.assign s.nodes s.edges = .ok placements ∧ s.Labels placements := by
  obtain ⟨h, -, -⟩ := checkStructure_eq_ok_iff.mp hcheck
  have hwell := hs.wellFormed
  have hplaceable := hwell.placeable h
  obtain ⟨run, levels, -, hrun, -, hassign⟩ := hplaceable.exists_assign
  have hnumbers := (Placement.labelled_numbers [] _).trans
    (Placement.seatsIn_numbers levels hplaceable.ids_nodup hrun.nodup fun _ => hplaceable.mem_run hrun)
  have hnode : ∀ t ∈ Placement.seatsIn run levels s.nodes, s.node? t.node.id = some t.node := by
    intro t ht
    obtain ⟨n, hn, rfl⟩ := Placement.mem_seatsIn ht
    exact hwell.node?_eq_some_iff.mpr ⟨hn, rfl⟩
  refine ⟨_, hassign, ?_, ?_, Placement.labels_nodup [] _, fun kind level => ?_, fun path => ?_⟩
  · rw [Placement.labelled_names, Placement.seatsIn_names levels hplaceable.ids_nodup hrun.nodup
      fun _ => hplaceable.mem_run hrun]
    exact hrun.topological.perm.trans (.of_eq hplaceable.nodes_graph)
  · have horders := congrArg (List.map (·.2)) hnumbers
    rw [List.map_map, List.zipIdx_map_snd] at horders
    have hsorted : (List.range' 1 run.length).Pairwise (· < ·) := List.pairwise_lt_range'
    exact List.pairwise_map.mp (horders ▸ hsorted)
  · refine .of_range (Placement.map_filter_labelled (p := fun t => t.level == level && t.node.kind == kind) []
      (fun t ht before => ?_) fun t ht hp before => ?_)
    · simp only [Placement.entryAfter, kind?, hnode t ht, Option.map_some, Bool.and_comm (t.level == level)]
      rfl
    · obtain ⟨rfl, rfl⟩ : t.level = level ∧ t.node.kind = kind := by simpa using hp
      exact Placement.labelAfter_eq before t
  · refine .of_range (Placement.map_filter_labelled (p := fun t => t.node.config.guardedPath == some path) []
      (fun t ht before => ?_) fun t ht hp before => ?_)
    · simp only [Placement.entryAfter, guardedPath?, hnode t ht, Option.bind_some]
    · simp only [Placement.entryAfter, Placement.displayLabelAfter, beq_iff_eq.mp hp]

/-- A Path with two guards: one leads to a Find and on to the end, the other to the end. -/
def withGuards (p : Point) : Store where
  nodes := [
    .unplaced startId (.default .start) p,
    .unplaced finishId (.default .finish) p,
    .unplaced "path_1" (.default .path) p,
    .unplaced "cond_1" (.condition ⟨.rules, "", .empty, some "path_1", some "find_1"⟩) p,
    .unplaced "cond_2" (.condition ⟨.rules, "", .empty, some "path_1", some finishId⟩) p,
    .unplaced "find_1" (.default .find) p]
  links := [
    .plain startId "path_1",
    ⟨"e1", "path_1", "cond_1", some "branch_1"⟩,
    ⟨"e2", "cond_1", "find_1", some "branch_1"⟩,
    ⟨"e3", "path_1", "cond_2", some "branch_2"⟩,
    ⟨"e4", "cond_2", finishId, some "branch_2"⟩,
    .plain "find_1" finishId]
  index := [("estart-path_1", startId, "path_1"), ("e1", "path_1", "cond_1"), ("e2", "cond_1", "find_1"),
    ("e3", "path_1", "cond_2"), ("e4", "cond_2", finishId), ("efind_1-end", "find_1", finishId)]

theorem built_withGuards (p : Point) : (withGuards p).Built := by
  have hnodes : (withGuards p).nodes.foldlM Store.addNode .empty =
      .ok { withGuards p with links := [], index := [] } := by
    cbv
  have hedges : (withGuards p).links.foldlM Store.addEdge { withGuards p with links := [], index := [] } =
      .ok (withGuards p) := by
    cbv
  exact .of_lists hnodes hedges

theorem checkStructure_withGuards (p : Point) : (withGuards p).checkStructure = .ok () := by
  cbv

theorem exists_labels_withGuards :
    (withGuards .origin).Built ∧ (withGuards .origin).checkStructure = .ok () ∧
      ∃ placements, Placement.assign (withGuards .origin).nodes (withGuards .origin).edges = .ok placements ∧
        (withGuards .origin).Labels placements :=
  ⟨built_withGuards .origin, checkStructure_withGuards .origin,
    Built.exists_labels (built_withGuards .origin) (checkStructure_withGuards .origin)⟩

example (p : Point) : ((Placement.assign (withGuards p).nodes (withGuards p).edges).toOption.getD []).map
    (fun entry => (entry.2.label, entry.2.displayLabel)) =
      [("Start_1_Level1", "Start"), ("Path_1_Level2", "Path"), ("Cond_1_Level3", "Condition 1"),
        ("Find_1_Level4", "Find"), ("Cond_2_Level3", "Condition 2"), ("End_1_Level5", "End")] := by
  cbv

end Store

end FormFlow
