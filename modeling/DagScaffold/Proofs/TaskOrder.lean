import Mathlib
import DagScaffold.Dag.Schedule
import DagScaffold.Proofs.Validity

/-!
# The order that the dependencies of a DAG make

An edge lets every task of its source run before every task of its target. The start, the steps and
the end of a DAG are its layers; the edges join each layer to the next one, so their transitive
closure orders two tasks exactly when the layer of the first one comes earlier.

* `Before` : the order of the tasks of some edges;
* `Earlier` : the order of the members of some layers;
* `runsBefore_iff_of_validate` : the order of the tasks of a validated project.
-/

namespace DagScaffold.Dag

/-! ## Edges as relations -/

/-- Whether an edge says by itself that `x` runs before `y`. -/
def Edge.Orders (e : Edge) (x y : String) : Prop :=
  x ∈ e.source.names ∧ y ∈ e.target.names

/-- Whether one of some edges says by itself that `x` runs before `y`. -/
def Joined (edges : List Edge) (x y : String) : Prop :=
  ∃ e ∈ edges, e.Orders x y

/-- Whether some edges together say that `x` runs before `y`. -/
def Before (edges : List Edge) : String → String → Prop :=
  Relation.TransGen (Joined edges)

/-! ## Layers -/

/-- Whether `x` is in one of some layers and `y` in the next one. -/
def Adjacent : List (List String) → String → String → Prop
  | a :: b :: rest, x, y => (x ∈ a ∧ y ∈ b) ∨ Adjacent (b :: rest) x y
  | _, _, _ => False

/-- Whether `x` is in one of some layers and `y` in a later one. -/
def Earlier : List (List String) → String → String → Prop
  | [], _, _ => False
  | a :: rest, x, y => (x ∈ a ∧ y ∈ rest.flatten) ∨ Earlier rest x y

/-- What is in an earlier layer is in a layer, as is what comes later. -/
theorem mem_flatten_of_earlier {layers : List (List String)} {x y : String}
    (h : Earlier layers x y) : x ∈ layers.flatten ∧ y ∈ layers.flatten := by
  induction layers with
  | nil => exact h.elim
  | cons a rest ih =>
      rw [List.flatten_cons, List.mem_append, List.mem_append]
      rcases h with ⟨hx, hy⟩ | h
      · exact ⟨Or.inl hx, Or.inr hy⟩
      · exact ⟨Or.inr (ih h).1, Or.inr (ih h).2⟩

/-- Of two neighbours the first one is earlier. -/
theorem earlier_of_adjacent {layers : List (List String)} {x y : String}
    (h : Adjacent layers x y) : Earlier layers x y := by
  induction layers with
  | nil => exact h.elim
  | cons a rest ih =>
      cases rest with
      | nil => exact h.elim
      | cons b rest =>
          rcases h with ⟨hx, hy⟩ | h
          · exact Or.inl ⟨hx, List.mem_append_left _ hy⟩
          · exact Or.inr (ih h)

/-- Among distinct members, being in an earlier layer is transitive. -/
theorem earlier_trans {layers : List (List String)} (hdistinct : layers.flatten.Nodup)
    {x y z : String} (hxy : Earlier layers x y) (hyz : Earlier layers y z) :
    Earlier layers x z := by
  induction layers with
  | nil => exact hxy.elim
  | cons a rest ih =>
      rw [List.flatten_cons, List.nodup_append] at hdistinct
      obtain ⟨-, hrest, hapart⟩ := hdistinct
      have hlater : y ∈ rest.flatten := by
        rcases hxy with ⟨-, hy⟩ | hxy
        · exact hy
        · exact (mem_flatten_of_earlier hxy).2
      rcases hyz with ⟨hy, -⟩ | hyz
      · -- a member of a later layer is in no earlier one
        exact absurd rfl (hapart y hy y hlater)
      · rcases hxy with ⟨hx, -⟩ | hxy
        · exact Or.inl ⟨hx, (mem_flatten_of_earlier hyz).2⟩
        · exact Or.inr (ih hrest hxy hyz)

/-- In distinct layers nothing is earlier than itself. -/
theorem not_earlier_self {layers : List (List String)} (hdistinct : layers.flatten.Nodup)
    (x : String) : ¬Earlier layers x x := by
  induction layers with
  | nil => exact id
  | cons a rest ih =>
      rw [List.flatten_cons, List.nodup_append] at hdistinct
      obtain ⟨-, hrest, hapart⟩ := hdistinct
      rintro (⟨hx, hx'⟩ | h)
      · exact hapart x hx x hx' rfl
      · exact ih hrest h

/-- Through layers that are not empty, each member is joined to those of every later layer. -/
theorem transGen_adjacent_of_earlier {layers : List (List String)}
    (hnonempty : ∀ a ∈ layers, a ≠ []) {x y : String} (h : Earlier layers x y) :
    Relation.TransGen (Adjacent layers) x y := by
  induction layers generalizing x with
  | nil => exact h.elim
  | cons a rest ih =>
      cases rest with
      | nil =>
          rcases h with ⟨-, hy⟩ | h
          · exact absurd hy List.not_mem_nil
          · exact h.elim
      | cons b rest =>
          have hlater : ∀ {z}, Earlier (b :: rest) z y →
              Relation.TransGen (Adjacent (a :: b :: rest)) z y := fun hz =>
            Relation.TransGen.mono (fun _ _ => Or.inr) _ _
              (ih (fun c hc => hnonempty c (List.mem_cons_of_mem a hc)) hz)
          rcases h with ⟨hx, hy⟩ | h
          · rcases List.mem_append.mp hy with hy | hy
            · exact Relation.TransGen.single (Or.inl ⟨hx, hy⟩)
            · -- the next layer has a member to go through
              obtain ⟨w, hw⟩ := List.exists_mem_of_ne_nil b (hnonempty b (by simp))
              exact Relation.TransGen.head (Or.inl ⟨hx, hw⟩) (hlater (Or.inl ⟨hw, hy⟩))
          · exact hlater h

/-- The transitive closure of being in adjacent layers is being in an earlier layer. -/
theorem transGen_adjacent_iff {layers : List (List String)} (hnonempty : ∀ a ∈ layers, a ≠ [])
    (hdistinct : layers.flatten.Nodup) (x y : String) :
    Relation.TransGen (Adjacent layers) x y ↔ Earlier layers x y := by
  refine ⟨fun h => ?_, transGen_adjacent_of_earlier hnonempty⟩
  induction h with
  | single h => exact earlier_of_adjacent h
  | tail _ h ih => exact earlier_trans hdistinct ih (earlier_of_adjacent h)

/-! ## Layers by their positions -/

/-- One of two names is earlier when the number of its layer is smaller. -/
theorem earlier_iff_getElem? (layers : List (List String)) (x y : String) :
    Earlier layers x y ↔
      ∃ (i j : Nat) (a b : List String),
        i < j ∧ layers[i]? = some a ∧ layers[j]? = some b ∧ x ∈ a ∧ y ∈ b := by
  induction layers with
  | nil => simp [Earlier]
  | cons a rest ih =>
      rw [Earlier, ih]
      constructor
      · rintro (⟨hx, hy⟩ | ⟨i, j, b, c, hij, hi, hj, hx, hy⟩)
        · obtain ⟨b, hb, hy⟩ := List.mem_flatten.mp hy
          obtain ⟨j, hj⟩ := List.mem_iff_getElem?.mp hb
          exact ⟨0, j + 1, a, b, Nat.succ_pos j, rfl, hj, hx, hy⟩
        · exact ⟨i + 1, j + 1, b, c, Nat.succ_lt_succ hij, hi, hj, hx, hy⟩
      · rintro ⟨i, j, b, c, hij, hi, hj, hx, hy⟩
        obtain ⟨j, rfl⟩ := Nat.exists_eq_succ_of_ne_zero (Nat.ne_zero_of_lt hij)
        rw [List.getElem?_cons_succ] at hj
        cases i with
        | zero =>
            obtain rfl := Option.some.inj hi
            exact Or.inl ⟨hx, List.mem_flatten.mpr ⟨c, List.mem_of_getElem? hj, hy⟩⟩
        | succ i =>
            exact Or.inr ⟨i, j, b, c, Nat.lt_of_succ_lt_succ hij, hi, hj, hx, hy⟩

/-- Among distinct members each has one layer. -/
theorem position_unique {layers : List (List String)} (hdistinct : layers.flatten.Nodup)
    {i j : Nat} {a b : List String} {x : String} (hi : layers[i]? = some a)
    (hj : layers[j]? = some b) (ha : x ∈ a) (hb : x ∈ b) : i = j := by
  rcases Nat.lt_trichotomy i j with hij | hij | hij
  · exact absurd ((earlier_iff_getElem? _ x x).mpr ⟨i, j, a, b, hij, hi, hj, ha, hb⟩)
      (not_earlier_self hdistinct x)
  · exact hij
  · exact absurd ((earlier_iff_getElem? _ x x).mpr ⟨j, i, b, a, hij, hj, hi, hb, ha⟩)
      (not_earlier_self hdistinct x)

/-- With a last layer of one name every name before it is earlier. -/
theorem earlier_append_singleton_iff (layers : List (List String)) (last x y : String) :
    Earlier (layers ++ [[last]]) x y ↔
      Earlier layers x y ∨ (x ∈ layers.flatten ∧ y = last) := by
  induction layers with
  | nil => simp [Earlier]
  | cons a rest ih =>
      rw [List.cons_append, Earlier, Earlier, ih, List.flatten_append, List.flatten_cons]
      simp only [List.mem_append, List.flatten_cons, List.flatten_nil, List.append_nil,
        List.mem_singleton]
      tauto

/-! ## The layers of a pipeline -/

/-- The layers of a DAG whose steps have the given symbols. -/
def layers (steps : List (List String)) : List (List String) :=
  [startName] :: steps ++ [[endName]]

/-- The side of a dependency that stands for some symbols has these as its names. -/
theorem Node.names_of_ofSymbols? {symbols : List String} {node : Node}
    (h : Node.ofSymbols? symbols = some node) : node.names = symbols := by
  match symbols, h with
  | [symbol], h =>
      obtain rfl := Option.some.inj h
      rfl
  | a :: b :: rest, h =>
      obtain rfl := Option.some.inj h
      rfl

/-- Some symbols have a side of a dependency. -/
theorem Node.ofSymbols?_isSome {symbols : List String} (h : symbols ≠ []) :
    ∃ node, Node.ofSymbols? symbols = some node := by
  match symbols with
  | [symbol] => exact ⟨_, rfl⟩
  | a :: b :: rest => exact ⟨_, rfl⟩

/-- What the loop over the steps keeps: the edges from a source on join its tasks to the first step
that is left, and each step to the next one. -/
theorem joined_linkFrom_iff (source : Node) {steps : List (List String)}
    (hnonempty : ∀ step ∈ steps, step ≠ []) (x y : String) :
    Joined (linkFrom source steps) x y ↔ Adjacent (source.names :: steps ++ [[endName]]) x y := by
  induction steps generalizing source with
  | nil => simp [linkFrom, Joined, Edge.Orders, Adjacent, Node.names]
  | cons step steps ih =>
      obtain ⟨hstep, hsteps⟩ := List.forall_mem_cons.mp hnonempty
      obtain ⟨target, htarget⟩ := Node.ofSymbols?_isSome hstep
      have hnames := Node.names_of_ofSymbols? htarget
      have hrest := ih target hsteps
      rw [hnames] at hrest
      -- the first edge joins the source to the step, and the others start from the step
      rw [linkFrom, htarget]
      simp only [Joined, List.mem_cons, exists_eq_or_imp, List.cons_append, Adjacent]
      rw [← List.cons_append, ← hrest, Joined, Edge.Orders, hnames]

/-- Dependencies that link layers put one name before another when its layer is earlier. -/
theorem before_link_iff_earlier {steps : List (List String)} (hnonempty : ∀ step ∈ steps, step ≠ [])
    (hdistinct : (layers steps).flatten.Nodup) (x y : String) :
    Before (link steps) x y ↔ Earlier (layers steps) x y := by
  have hjoined : Joined (link steps) = Adjacent (layers steps) := by
    funext x y
    exact propext (joined_linkFrom_iff (.single startName) hnonempty x y)
  rw [Before, hjoined]
  refine transGen_adjacent_iff (fun a ha => ?_) hdistinct x y
  simp only [layers, List.cons_append, List.mem_cons, List.mem_append, List.not_mem_nil,
    or_false] at ha
  rcases ha with rfl | ha | rfl
  · simp
  · exact hnonempty a ha
  · simp

/-- The start comes before all, the end after all, and between them the order is that of the
steps. -/
theorem earlier_layers_iff (steps : List (List String)) (x y : String) :
    Earlier (layers steps) x y ↔
      (x = startName ∧ (y ∈ steps.flatten ∨ y = endName)) ∨
        (x ∈ steps.flatten ∧ y = endName) ∨ Earlier steps x y := by
  rw [layers, List.cons_append, Earlier, earlier_append_singleton_iff, List.flatten_append]
  simp only [List.mem_append, List.flatten_cons, List.flatten_nil, List.append_nil,
    List.mem_singleton]
  tauto

/-! ## The order of a validated pipeline -/

/-- In a valid project no name is in two layers. -/
theorem nodup_flatten_layers {c : Config} (h : c.WellFormed) :
    (layers (c.pipeline.map Step.symbols)).flatten.Nodup := by
  have hstart : startName ∉ c.symbols := fun hmem => h.not_mem_reserved hmem (by decide)
  have hend : endName ∉ c.symbols := fun hmem => h.not_mem_reserved hmem (by decide)
  rw [layers, List.cons_append, List.flatten_cons, List.flatten_append, ← c.symbols_eq_flatten]
  simp only [List.flatten_cons, List.flatten_nil, List.append_nil, List.singleton_append,
    List.nodup_cons, List.mem_append, List.mem_singleton, not_or, List.nodup_append,
    List.not_mem_nil, not_false_eq_true, List.nodup_nil, and_true]
  refine ⟨⟨hstart, by decide⟩, h.symbols_distinct, trivial, ?_⟩
  rintro x hx y rfl rfl
  exact hend hx

/-- Whether `x` and `y` are symbols of two steps of a project of which the first one comes
earlier. -/
def InEarlierStep (c : Config) (x y : String) : Prop :=
  ∃ (i j : Nat) (s s' : Step), i < j ∧ c.pipeline[i]? = some s ∧ c.pipeline[j]? = some s' ∧
    x ∈ s.symbols ∧ y ∈ s'.symbols

/-- The layers of a project are its steps. -/
theorem earlier_map_symbols_iff (c : Config) (x y : String) :
    Earlier (c.pipeline.map Step.symbols) x y ↔ InEarlierStep c x y := by
  rw [earlier_iff_getElem?]
  simp only [List.getElem?_map, Option.map_eq_some_iff]
  constructor
  · rintro ⟨i, j, a, b, hij, ⟨s, hs, rfl⟩, ⟨s', hs', rfl⟩, hx, hy⟩
    exact ⟨i, j, s, s', hij, hs, hs', hx, hy⟩
  · rintro ⟨i, j, s, s', hij, hs, hs', hx, hy⟩
    exact ⟨i, j, _, _, hij, ⟨s, hs, rfl⟩, ⟨s', hs', rfl⟩, hx, hy⟩

/-- The order in which the tasks of a project run. -/
def RunsBefore (c : Config) : String → String → Prop :=
  Before (link (c.pipeline.map Step.symbols))

/-- In a valid project a task runs before another one when its layer is earlier. -/
theorem runsBefore_iff_earlier {c : Config} (h : c.WellFormed) (x y : String) :
    RunsBefore c x y ↔ Earlier (layers (c.pipeline.map Step.symbols)) x y := by
  refine before_link_iff_earlier (fun step hstep => ?_) (nodup_flatten_layers h) x y
  obtain ⟨s, hs, rfl⟩ := List.mem_map.mp hstep
  rw [Step.symbols, Ne, List.map_eq_nil_iff]
  exact h.step_nonempty s hs

/-- A task of a valid project runs after the start, before the end, and before the tasks of later
steps. -/
theorem runsBefore_iff {c : Config} (h : c.WellFormed) (x y : String) :
    RunsBefore c x y ↔ (x = startName ∧ (y ∈ c.symbols ∨ y = endName)) ∨
      (x ∈ c.symbols ∧ y = endName) ∨ InEarlierStep c x y := by
  rw [runsBefore_iff_earlier h, earlier_layers_iff, ← c.symbols_eq_flatten,
    earlier_map_symbols_iff]

/-- Two tasks are ordered as the positions of their steps are. -/
theorem runsBefore_symbol_iff {c : Config} (h : c.WellFormed) {i j : Nat} {s s' : Step}
    {t t' : Task} (hi : c.pipeline[i]? = some s) (hj : c.pipeline[j]? = some s')
    (ht : t ∈ s.tasks) (ht' : t' ∈ s'.tasks) :
    RunsBefore c t.symbol t'.symbol ↔ i < j := by
  have hsymbol : t.symbol ∈ s.symbols := List.mem_map_of_mem ht
  have hsymbol' : t'.symbol ∈ s'.symbols := List.mem_map_of_mem ht'
  have hmem : t.symbol ∈ c.symbols :=
    List.mem_map_of_mem (Config.mem_tasks (List.mem_of_getElem? hi) ht)
  have hmem' : t'.symbol ∈ c.symbols :=
    List.mem_map_of_mem (Config.mem_tasks (List.mem_of_getElem? hj) ht')
  have hdistinct : (c.pipeline.map Step.symbols).flatten.Nodup := by
    rw [← c.symbols_eq_flatten]
    exact h.symbols_distinct
  have hstep : ∀ {k : Nat} {r : Step}, c.pipeline[k]? = some r →
      (c.pipeline.map Step.symbols)[k]? = some r.symbols := by
    intro k r hk
    rw [List.getElem?_map, hk, Option.map_some]
  rw [runsBefore_iff h]
  constructor
  · rintro (⟨hstart, -⟩ | ⟨-, hend⟩ | ⟨i', j', r, r', hij, hi', hj', hr, hr'⟩)
    · exact absurd (hstart ▸ hmem) fun hmem => h.not_mem_reserved hmem (by decide)
    · exact absurd (hend ▸ hmem') fun hmem => h.not_mem_reserved hmem (by decide)
    · rw [position_unique hdistinct (hstep hi) (hstep hi') hsymbol hr,
        position_unique hdistinct (hstep hj) (hstep hj') hsymbol' hr']
      exact hij
  · intro hij
    exact Or.inr (Or.inr ⟨i, j, s, s', hij, hi, hj, hsymbol, hsymbol'⟩)

/-- The dependencies of a validated pipeline order exactly this: the start runs before every task
and before the end, every task before the end, and a task before another one when its step comes
strictly earlier. So no task runs before itself, the tasks of one step are not ordered and none is
left out. -/
theorem runsBefore_iff_of_validate {p : Payload} {c : Config} (h : p.validate = .ok c) :
    (∀ x y, RunsBefore c x y ↔ (x = startName ∧ (y ∈ c.symbols ∨ y = endName)) ∨
      (x ∈ c.symbols ∧ y = endName) ∨ InEarlierStep c x y) ∧
    (∀ (i j : Nat) (s s' : Step) (t t' : Task), c.pipeline[i]? = some s →
      c.pipeline[j]? = some s' → t ∈ s.tasks → t' ∈ s'.tasks →
        (RunsBefore c t.symbol t'.symbol ↔ i < j)) ∧
    (∀ x, ¬RunsBefore c x x) ∧
    ∀ t ∈ c.tasks, RunsBefore c startName t.symbol ∧ RunsBefore c t.symbol endName := by
  have hwell := Payload.wellFormed_of_validate h
  refine ⟨runsBefore_iff hwell, ?_, ?_, ?_⟩
  · intro i j s s' t t' hi hj ht ht'
    exact runsBefore_symbol_iff hwell hi hj ht ht'
  · intro x hx
    exact not_earlier_self (nodup_flatten_layers hwell) x ((runsBefore_iff_earlier hwell x x).mp hx)
  · intro t ht
    have hmem : t.symbol ∈ c.symbols := List.mem_map_of_mem ht
    exact ⟨(runsBefore_iff hwell _ _).mpr (Or.inl ⟨rfl, Or.inl hmem⟩),
      (runsBefore_iff hwell _ _).mpr (Or.inr (Or.inl ⟨hmem, rfl⟩))⟩

/-- A pipeline with a single task before two that run in parallel. -/
def threeTasks : Payload where
  name := "demo"
  robin := "rbta"
  pipeline := [
    { id := "s1", tasks := [{ id := "t1", name := "extract" }] },
    { id := "s2", tasks := [{ id := "t2", name := "load-a" }, { id := "t3", name := "load b!" }] }]

/-- A task runs before those of the next step, and these run in no order. -/
theorem runsBefore_iff_threeTasks :
    threeTasks.validate = .ok threeTasks.toConfig ∧
      RunsBefore threeTasks.toConfig "extract" "load_b_" ∧
        ¬RunsBefore threeTasks.toConfig "load_a" "load_b_" := by
  have h : threeTasks.validate = .ok threeTasks.toConfig := by rfl
  obtain ⟨-, horder, -⟩ := runsBefore_iff_of_validate h
  refine ⟨h, ?_, ?_⟩
  · exact (horder 0 1 _ _ _ _ rfl rfl List.mem_cons_self
      (List.mem_cons_of_mem _ List.mem_cons_self)).mpr Nat.zero_lt_one
  · intro hbefore
    exact absurd ((horder 1 1 _ _ _ _ rfl rfl List.mem_cons_self
      (List.mem_cons_of_mem _ List.mem_cons_self)).mp hbefore) (Nat.lt_irrefl 1)

end DagScaffold.Dag
