import ThemedCss.Proofs.Style.Scan
import ThemedCss.Proofs.Syntax.Span
import ThemedCss.Proofs.Table
import ThemedCss.Theme.Module

/-! How a module is read, step by step: where references lead, and which object literal is read for
a value or a property. -/
namespace ThemedCss.Theme
open Relation ThemedCss.Data ThemedCss.Style ThemedCss.Syntax ThemedCss.Text

private theorem nodeHeight_le_nodeHeights {c : Node} {ns : List Node} (h : c ∈ ns) :
    nodeHeight c ≤ nodeHeights ns := by
  induction ns with
  | nil => simp at h
  | cons n ns ih =>
    rw [nodeHeights]
    rcases List.mem_cons.mp h with rfl | h
    · exact Nat.le_max_left _ _
    · exact Nat.le_trans (ih h) (Nat.le_max_right _ _)

theorem nodeHeight_child {n c : Node} (h : c ∈ n.children) : nodeHeight c < nodeHeight n := by
  cases n
  rw [nodeHeight]
  exact Nat.lt_succ_of_le (nodeHeight_le_nodeHeights h)

theorem nodeHeight_pos (n : Node) : 0 < nodeHeight n := by
  cases n
  exact Nat.succ_pos _

theorem nodeHeight_le {n c : Node} (h : n.Contains c) : nodeHeight c ≤ nodeHeight n := by
  induction h with
  | refl => exact Nat.le_refl _
  | tail _ hc ih => exact Nat.le_trans (Nat.le_of_lt (nodeHeight_child hc)) ih

theorem textOf_ne_endless (source : Bytes) (n : Node) : textOf source n ≠ .error .endless := by
  unfold textOf
  cases decode (slice source n.start n.stop) <;> simp

theorem pure_ne_endless {α : Type} (a : α) : (pure a : Reading α) ≠ .error .endless := by
  intro h
  cases h

theorem bind_ne_endless {α β : Type} {x : Reading α} {f : α → Reading β} (hx : x ≠ .error .endless)
    (hf : ∀ a, f a ≠ .error .endless) : x >>= f ≠ .error .endless := by
  cases x with
  | error e => exact fun h => hx (congrArg Except.error (Except.error.inj h))
  | ok a => exact hf a

theorem map_eq_endless_iff {α β : Type} {x : Reading α} {g : α → β} :
    x.map g = .error .endless ↔ x = .error .endless := by
  cases x <;> simp [Except.map]

theorem mapM_ne_endless {α β : Type} {f : α → Reading β} (hf : ∀ a, f a ≠ .error .endless)
    (xs : List α) : xs.mapM f ≠ .error .endless := by
  induction xs with
  | nil => exact pure_ne_endless _
  | cons x xs ih =>
    rw [List.mapM_cons]
    exact bind_ne_endless (hf x) fun _ => bind_ne_endless ih fun _ => pure_ne_endless _

theorem exists_of_mapM {α β : Type} {f : α → Reading β} {xs : List α} {ys : List β}
    (h : xs.mapM f = .ok ys) {y : β} (hy : y ∈ ys) : ∃ x ∈ xs, f x = .ok y := by
  induction xs generalizing ys with
  | nil =>
    obtain rfl := Except.ok.inj h
    cases hy
  | cons x xs ih =>
    rw [List.mapM_cons] at h
    obtain ⟨first, hfirst, h⟩ := bind_eq_ok.mp h
    obtain ⟨rest, hrest, h⟩ := bind_eq_ok.mp h
    obtain rfl := Except.ok.inj h
    rcases List.mem_cons.mp hy with rfl | hy
    · exact ⟨x, List.mem_cons_self, hfirst⟩
    · obtain ⟨z, hz, hfz⟩ := ih hrest hy
      exact ⟨z, List.mem_cons_of_mem x hz, hfz⟩

/-- The constants of a statement are values that stand inside it. -/
theorem constantsOf_contains {source : Bytes} {statement : Node} {found : List (String × Node)}
    (h : constantsOf source statement = .ok found) {e : String × Node} (he : e ∈ found) :
    statement.Contains e.2 := by
  rw [constantsOf] at h
  have hin : statement.Contains
      (if statement.kind = .exportStatement then (statement.child? .declaration).getD statement
        else statement) := by
    split_ifs
    · cases hc : statement.child? .declaration with
      | none => exact .refl
      | some c => exact Node.contains_child? hc
    · exact .refl
  generalize (if statement.kind = .exportStatement then _ else statement) = declaration at h hin
  split_ifs at h
  · obtain ⟨parts, hparts, h⟩ := bind_eq_ok.mp h
    obtain rfl := Except.ok.inj h
    obtain ⟨part, hpart, he⟩ := List.mem_flatten.mp he
    obtain ⟨d, hd, hd'⟩ := exists_of_mapM hparts hpart
    refine (hin.tail (List.mem_filter.mp hd).1).trans ?_
    cases hname : d.child? .name with
    | none =>
      simp only [hname] at hd'
      obtain rfl := Except.ok.inj hd'
      cases he
    | some name =>
      cases hvalue : d.child? .value with
      | none =>
        simp only [hname, hvalue] at hd'
        obtain rfl := Except.ok.inj hd'
        cases he
      | some value =>
        simp only [hname, hvalue] at hd'
        split_ifs at hd'
        · obtain ⟨text, -, hd'⟩ := bind_eq_ok.mp hd'
          obtain rfl := Except.ok.inj hd'
          obtain rfl := List.mem_singleton.mp he
          exact Node.contains_child? hvalue
        · obtain rfl := Except.ok.inj hd'
          cases he
  · obtain rfl := Except.ok.inj h
    cases he

private theorem constantsOf_ne_endless (source : Bytes) (statement : Node) :
    constantsOf source statement ≠ .error .endless := by
  rw [constantsOf]
  generalize (if statement.kind = .exportStatement then _ else statement) = declaration
  split_ifs
  · refine bind_ne_endless (mapM_ne_endless (fun d => ?_) _) fun _ => pure_ne_endless _
    cases d.child? .name with
    | none => exact pure_ne_endless _
    | some name =>
      cases d.child? .value with
      | none => exact pure_ne_endless _
      | some value =>
        simp only
        split_ifs
        · exact bind_ne_endless (textOf_ne_endless source name) fun _ => pure_ne_endless _
        · exact pure_ne_endless _
  · exact pure_ne_endless _

namespace ThemeModule

structure Sound (m : ThemeModule) : Prop where
  constants : ∀ name n, m.constants.get? name = some n → m.root.Contains n
  depth : m.depth = (m.constants.length + 2) * (nodeHeight m.root + 2)

variable {m : ThemeModule}

/-- One step towards the object behind an expression: what it is, or where to look next. -/
def follow (m : ThemeModule) (seen : List String) (n : Node) :
    Reading (Option Node ⊕ List String × Option Node) := do
  let n := n.unwrap
  match n.kind with
  | .object => return .inl (some n)
  | .identifier =>
    let name ← textOf m.source n
    if seen.contains name then return .inl none
    else return .inr (name :: seen, m.constants.get? name)
  | .call => return .inr (seen, (n.child? .arguments).bind (·.named.head?))
  | .asExpression | .satisfiesExpression => return .inr (seen, n.named.head?)
  | _ => return .inl none

theorem object?_succ (depth : Nat) (seen : List String) (n : Node) :
    m.object? (depth + 1) seen (some n) =
      m.follow seen n >>= Sum.elim pure fun next => m.object? depth next.1 next.2 := by
  rw [object?, follow]
  obtain ⟨kind, role, start, stop, text, children⟩ := n.unwrap
  cases kind with
  | identifier =>
    dsimp only
    cases textOf m.source ⟨.identifier, role, start, stop, text, children⟩ with
    | error f => rfl
    | ok name =>
      cases h : seen.contains name <;> simp only [bind, Except.bind, h] <;> rfl
  | _ => rfl

/-- Where one step leads: strictly inside the expression, or to a constant that was not seen
before. -/
inductive Leads (m : ThemeModule) (seen : List String) (n : Node) :
    Option Node ⊕ List String × Option Node → Prop
  | nothing : Leads m seen n (.inl none)
  | object {o : Node} (inside : n.Contains o) (kind : o.kind = .object) :
      Leads m seen n (.inl (some o))
  | inside {x : Option Node} (below : ∀ c ∈ x, n.Contains c ∧ nodeHeight c < nodeHeight n) :
      Leads m seen n (.inr (seen, x))
  | constant {name : String} (new : name ∉ seen) :
      Leads m seen n (.inr (name :: seen, m.constants.get? name))

theorem below_named {n c : Node} (h : n.named.head? = some c) :
    n.Contains c ∧ nodeHeight c < nodeHeight n := by
  have hmem : c ∈ n.named := List.mem_of_mem_head? h
  exact ⟨Node.contains_named hmem, nodeHeight_child (Node.named_mem hmem)⟩

theorem follow_leads {seen : List String} {n : Node}
    {step : Option Node ⊕ List String × Option Node} (h : m.follow seen n = .ok step) :
    m.Leads seen n step := by
  have hin := Node.contains_unwrap n
  have hheight := nodeHeight_le hin
  rw [follow] at h
  generalize n.unwrap = u at h hin hheight
  -- what stands inside the stripped expression stands inside the whole one
  have hbelow {c : Node} (hc : u.Contains c ∧ nodeHeight c < nodeHeight u) :
      n.Contains c ∧ nodeHeight c < nodeHeight n :=
    ⟨hin.trans hc.1, Nat.lt_of_lt_of_le hc.2 hheight⟩
  by_cases hobject : u.kind = .object
  · simp only [hobject] at h
    obtain rfl := Except.ok.inj h
    exact .object hin hobject
  by_cases hidentifier : u.kind = .identifier
  · simp only [hidentifier] at h
    obtain ⟨name, -, h⟩ := bind_eq_ok.mp h
    split_ifs at h with hseen
    · obtain rfl := Except.ok.inj h
      exact .nothing
    · obtain rfl := Except.ok.inj h
      exact .constant (by simpa using hseen)
  by_cases hcall : u.kind = .call
  · simp only [hcall] at h
    obtain rfl := Except.ok.inj h
    refine .inside fun c hc => hbelow ?_
    obtain ⟨arguments, harguments, hfirst⟩ := Option.bind_eq_some_iff.mp hc
    have hmem := Node.child?_mem harguments
    have hfirst := below_named hfirst
    exact ⟨.head hmem hfirst.1, Nat.lt_trans hfirst.2 (nodeHeight_child hmem)⟩
  by_cases hcast : u.kind = .asExpression ∨ u.kind = .satisfiesExpression
  · have hnext : step = .inr (seen, u.named.head?) := by
      rcases hcast with hk | hk <;> simp only [hk] at h <;> exact (Except.ok.inj h).symm
    subst hnext
    exact .inside fun c hc => hbelow (below_named hc)
  · obtain ⟨has, hsatisfies⟩ := not_or.mp hcast
    obtain ⟨kind, role, start, stop, text, children⟩ := u
    have hnothing : step = .inl none := by
      cases kind <;> first | contradiction | exact (Except.ok.inj h).symm
    exact hnothing ▸ .nothing

private theorem follow_ne_endless (seen : List String) (n : Node) :
    m.follow seen n ≠ .error .endless := by
  rw [follow]
  obtain ⟨kind, role, start, stop, text, children⟩ := n.unwrap
  cases kind with
  | identifier =>
    refine bind_ne_endless (textOf_ne_endless _ _) fun name => ?_
    split_ifs <;> exact pure_ne_endless _
  | _ => exact pure_ne_endless _

/-- The constants that can still be entered. -/
def unseen (m : ThemeModule) (seen : List String) : Nat :=
  m.constants.keys.countP (· ∉ seen)

/-- The depth that suffices to find the object behind an expression. -/
def reach (m : ThemeModule) (seen : List String) (n : Option Node) : Nat :=
  m.unseen seen * (nodeHeight m.root + 2) + n.elim 0 nodeHeight + 1

theorem countP_unseen_cons (seen : List String) (name : String) (names : List String) :
    names.countP (· ∉ name :: seen) ≤ names.countP (· ∉ seen) := by
  refine List.countP_mono_left fun k _ hk => ?_
  simp only [List.mem_cons, not_or, decide_eq_true_eq] at hk ⊢
  exact hk.2

private theorem unseen_cons_lt {seen : List String} {name : String} {n : Node} (hnew : name ∉ seen)
    (h : m.constants.get? name = some n) : m.unseen (name :: seen) < m.unseen seen := by
  have hmem : name ∈ m.constants.keys := Table.mem_keys.mpr ⟨n, Table.mem_of_get? h⟩
  obtain ⟨before, after, hkeys⟩ := List.append_of_mem hmem
  have hbefore := countP_unseen_cons seen name before
  have hafter := countP_unseen_cons seen name after
  rw [unseen, unseen, hkeys, List.countP_append, List.countP_append,
    List.countP_cons_of_neg (by simp), List.countP_cons_of_pos (by simpa using hnew)]
  omega

private theorem reach_lt (hm : m.Sound) {seen : List String} {n : Node}
    {next : List String × Option Node} (h : m.Leads seen n (.inr next)) :
    m.reach next.1 next.2 < m.reach seen (some n) := by
  cases h with
  | @inside x hbelow =>
    cases x with
    | none =>
      have hpos := nodeHeight_pos n
      simp only [reach, Option.elim]
      omega
    | some c =>
      have hc := (hbelow c rfl).2
      simp only [reach, Option.elim]
      omega
  | @constant name hnew =>
    have hpos := nodeHeight_pos n
    cases hget : m.constants.get? name with
    | none =>
      have hle :=
        Nat.mul_le_mul_right (nodeHeight m.root + 2) (countP_unseen_cons seen name m.constants.keys)
      simp only [reach, unseen, Option.elim]
      omega
    | some c =>
      have hlt : m.unseen (name :: seen) + 1 ≤ m.unseen seen := unseen_cons_lt hnew hget
      have hle := Nat.mul_le_mul_right (nodeHeight m.root + 2) hlt
      rw [Nat.add_mul] at hle
      have hc := nodeHeight_le (hm.constants name c hget)
      simp only [reach, Option.elim]
      omega

theorem reach_le_depth (hm : m.Sound) (seen : List String) {n : Option Node}
    (hn : ∀ x ∈ n, m.root.Contains x) : m.reach seen n ≤ m.depth := by
  have hunseen : m.unseen seen ≤ m.constants.length :=
    Nat.le_trans List.countP_le_length (by simp [Table.keys])
  have hmul := Nat.mul_le_mul_right (nodeHeight m.root + 2) hunseen
  have hheight : n.elim 0 nodeHeight ≤ nodeHeight m.root := by
    cases n with
    | none => exact Nat.zero_le _
    | some x => exact nodeHeight_le (hn x rfl)
  rw [hm.depth, Nat.add_mul, reach]
  omega

/-- Following a step stays in the module. -/
theorem Leads.contains (hm : m.Sound) {seen : List String} {n : Node}
    {next : List String × Option Node} (h : m.Leads seen n (.inr next)) (hn : m.root.Contains n) :
    ∀ x ∈ next.2, m.root.Contains x := by
  cases h with
  | inside hbelow => exact fun x hx => hn.trans (hbelow x hx).1
  | constant => exact fun x hx => hm.constants _ x hx

/-- The object behind an expression is found, or seen to be missing, within `reach`. -/
theorem object?_ends (hm : m.Sound) {seen : List String} {n : Option Node}
    (hn : ∀ x ∈ n, m.root.Contains x) :
    ∃ r : Reading (Option Node), r ≠ .error .endless ∧
      (∀ o, r = .ok (some o) → m.root.Contains o ∧ o.kind = .object) ∧
      ∀ depth, m.reach seen n ≤ depth → m.object? depth seen n = r := by
  induction hreach : m.reach seen n using Nat.strongRecOn generalizing seen n with
  | _ bound ih =>
  subst hreach
  have hfirst {depth : Nat} (hdepth : m.reach seen n ≤ depth) : ∃ d, depth = d + 1 := by
    have hpos : 0 < m.reach seen n := Nat.succ_pos _
    exact ⟨depth - 1, by omega⟩
  cases n with
  | none =>
    refine ⟨.ok none, nofun, nofun, fun depth hdepth => ?_⟩
    obtain ⟨d, rfl⟩ := hfirst hdepth
    rfl
  | some n =>
    -- the first step is made at every depth; what is left of it needs less
    cases hstep : m.follow seen n with
    | error e =>
      have he : e ≠ .endless := fun h => follow_ne_endless seen n (h ▸ hstep)
      refine ⟨.error e, fun h => he (Except.error.inj h), nofun, fun depth hdepth => ?_⟩
      obtain ⟨d, rfl⟩ := hfirst hdepth
      rw [object?_succ, hstep]
      rfl
    | ok step =>
      have hleads := follow_leads hstep
      cases step with
      | inl found =>
        refine ⟨.ok found, nofun, fun o ho => ?_, fun depth hdepth => ?_⟩
        · obtain rfl := Except.ok.inj ho
          cases hleads with
          | object hin hkind => exact ⟨(hn n rfl).trans hin, hkind⟩
        · obtain ⟨d, rfl⟩ := hfirst hdepth
          rw [object?_succ, hstep]
          rfl
      | inr next =>
        have hlt := reach_lt hm hleads
        obtain ⟨r, hr, hobject, hsame⟩ := ih _ hlt (hleads.contains hm (hn n rfl)) rfl
        refine ⟨r, hr, hobject, fun depth hdepth => ?_⟩
        obtain ⟨d, rfl⟩ := hfirst hdepth
        rw [object?_succ, hstep]
        exact hsame d (by omega)

theorem object?_ne_endless (hm : m.Sound) (seen : List String) {n : Option Node}
    (hn : ∀ x ∈ n, m.root.Contains x) : m.object? m.depth seen n ≠ .error .endless := by
  obtain ⟨r, hr, -, hsame⟩ := object?_ends hm hn
  exact hsame _ (reach_le_depth hm seen hn) ▸ hr

theorem object?_object (hm : m.Sound) {seen : List String} {n : Option Node} {o : Node}
    (hn : ∀ x ∈ n, m.root.Contains x) (h : m.object? m.depth seen n = .ok (some o)) :
    m.root.Contains o ∧ o.kind = .object := by
  obtain ⟨r, -, hobject, hsame⟩ := object?_ends hm hn
  exact hobject o (hsame _ (reach_le_depth hm seen hn) ▸ h)

/-! What an object asks for is the object literals that are read for its properties, each with the
constants that lead there. -/

/-- The object literal whose data an expression shows. -/
def shown? (m : ThemeModule) (seen : List String) :
    Option Node → Reading (Option (List String × Node))
  | none => return none
  | some n => do
    let n := n.unwrap
    match n.kind with
    | .identifier | .shorthand =>
      let name ← textOf m.source n
      if seen.contains name then return none
      return (← m.object? m.depth (name :: seen) (m.constants.get? name)).map (name :: seen, ·)
    | .object => return some (seen, n)
    | _ => return none

/-- The object literal that is read for a property. -/
def inner? (m : ThemeModule) (seen : List String) (property : Node) :
    Reading (Option (List String × Node)) := do
  match property.kind with
  | .pair =>
    match ← m.keyOf? (property.child? .key) with
    | some _ => m.shown? seen (property.child? .value)
    | none => return none
  | .shorthand =>
    let _ ← textOf m.source property
    m.shown? seen (some property)
  | .spread => return (← m.object? m.depth seen property.named.head?).map (seen, ·)
  | _ => return none

/-- How a value or a property is read: as the entries of one object literal, `lag` levels below, or
at once. -/
inductive Reads (m : ThemeModule) {α : Type} (object : Option (List String × Node))
    (f : Nat → Reading α) : Prop
  | entries {s : List String × Node} {lag : Nat} {g : Table String Value → α}
      (same : object = some s) (short : lag ≤ 1)
      (eq : ∀ depth, f depth = (m.entriesOf (depth - lag) s.1 s.2).map g)
  | settled {r : Reading α} (same : object = none) (ends : r ≠ .error .endless)
      (eq : ∀ depth, f (depth + 1) = r)
      (start : f 0 = r ∨ f 0 = .error .endless)

/-- The outcome of `shown?` or `inner?`, with a fault as no object. -/
def asked (x : Reading (Option (List String × Node))) : Option (List String × Node) :=
  x.toOption.join

theorem Reads.map {α β : Type} {object : Option (List String × Node)} {f : Nat → Reading α}
    (h : m.Reads object f) (g : α → β) : m.Reads object fun depth => (f depth).map g := by
  cases h with
  | @entries s lag g' same short eq =>
    refine .entries same short (g := g ∘ g') fun depth => ?_
    rw [eq depth]
    cases m.entriesOf (depth - lag) s.1 s.2 <;> rfl
  | @settled r same ends eq start =>
    refine .settled same (r := r.map g) (fun h => ends (map_eq_endless_iff.mp h))
      (fun depth => by rw [eq depth]) ?_
    exact start.imp (congrArg (Except.map g)) map_eq_endless_iff.mpr

theorem Reads.of_error {α : Type} {e : ModuleFault} (he : e ≠ .endless) {f : Nat → Reading α}
    (h : ∀ depth, f (depth + 1) = .error e) (start : f 0 = .error e ∨ f 0 = .error .endless) :
    m.Reads none f :=
  .settled rfl (fun h => he (Except.error.inj h)) h start

private theorem shown?_ne_endless (hm : m.Sound) (seen : List String) (n : Option Node) :
    m.shown? seen n ≠ .error .endless := by
  cases n with
  | none => exact pure_ne_endless _
  | some n =>
    rw [shown?]
    obtain ⟨kind, role, start, stop, text, children⟩ := n.unwrap
    cases kind with
    | identifier | shorthand =>
      refine bind_ne_endless (textOf_ne_endless _ _) fun name => ?_
      split_ifs
      · exact pure_ne_endless _
      · exact bind_ne_endless (object?_ne_endless hm _ (hm.constants name)) fun _ =>
          pure_ne_endless _
    | _ => exact pure_ne_endless _

/-- A name shows the entries of the object it stands for, if there is one. -/
theorem valueOf_named {n : Node} {name : String}
    (hn : n.unwrap.kind = .identifier ∨ n.unwrap.kind = .shorthand)
    (htext : textOf m.source n.unwrap = .ok name) (seen : List String) (depth : Nat) :
    m.valueOf (depth + 1) seen (some n) = m.shown? seen (some n) >>= fun s =>
      s.elim (.ok (.text s!"<{name}>")) fun s => (m.entriesOf depth s.1 s.2).map toMap := by
  rw [valueOf, shown?]
  rcases hn with hk | hk
  all_goals
    simp only [hk, htext, bind, Except.bind]
    cases seen.contains name with
    | true => rfl
    | false =>
      cases m.object? m.depth (name :: seen) (m.constants.get? name) with
      | error e => rfl
      | ok found => cases found <;> rfl

private theorem valueOf_named_error {n : Node} {e : ModuleFault}
    (hn : n.unwrap.kind = .identifier ∨ n.unwrap.kind = .shorthand)
    (htext : textOf m.source n.unwrap = .error e) (seen : List String) (depth : Nat) :
    m.valueOf (depth + 1) seen (some n) = .error e ∧ m.shown? seen (some n) = .error e := by
  rw [valueOf, shown?]
  rcases hn with hk | hk <;> simp only [hk, htext] <;> exact ⟨rfl, rfl⟩

private theorem valueOf_object {n : Node} (hk : n.unwrap.kind = .object) (seen : List String)
    (depth : Nat) :
    m.valueOf (depth + 1) seen (some n) = (m.entriesOf depth seen n.unwrap).map toMap := by
  rw [valueOf]
  simp only [hk]
  cases m.entriesOf depth seen n.unwrap <;> rfl

/-- All other expressions are read without a further object. -/
theorem valueOf_plain {n : Node} (hn : ¬(n.unwrap.kind = .identifier ∨ n.unwrap.kind = .shorthand))
    (ho : n.unwrap.kind ≠ .object) (seen : List String) :
    m.shown? seen (some n) = .ok none ∧ m.valueOf 1 seen (some n) ≠ .error .endless ∧
      ∀ depth, m.valueOf (depth + 1) seen (some n) = m.valueOf 1 seen (some n) := by
  obtain ⟨hi, hs⟩ := not_or.mp hn
  have hvalue := @valueOf.eq_3 m seen
  simp only [shown?, hvalue]
  generalize n.unwrap = u at hi hs ho
  have htext := textOf_ne_endless m.source u
  obtain ⟨kind, role, start, stop, text, children⟩ := u
  cases kind with
  | identifier | shorthand | object => contradiction
  | number =>
    refine ⟨rfl, bind_ne_endless htext fun raw => ?_, fun _ => rfl⟩
    cases digits? raw <;> exact pure_ne_endless _
  | trueLiteral | falseLiteral | arrowFunction | functionExpression =>
    exact ⟨rfl, pure_ne_endless _, fun _ => rfl⟩
  | _ => exact ⟨rfl, bind_ne_endless htext fun _ => pure_ne_endless _, fun _ => rfl⟩

theorem valueOf_reads (hm : m.Sound) (seen : List String) (n : Option Node) :
    m.Reads (asked (m.shown? seen n)) fun depth => m.valueOf depth seen n := by
  cases n with
  | none => exact .settled rfl (r := .ok .null) (pure_ne_endless _) (fun _ => rfl) (.inr rfl)
  | some n =>
    have hstart : m.valueOf 0 seen (some n) = .error .endless := rfl
    by_cases hn : n.unwrap.kind = .identifier ∨ n.unwrap.kind = .shorthand
    · cases htext : textOf m.source n.unwrap with
      | error e =>
        have hvalue := valueOf_named_error hn htext seen
        rw [(hvalue 0).2]
        exact .of_error (fun h => textOf_ne_endless _ _ (h ▸ htext)) (fun depth => (hvalue depth).1)
          (.inr hstart)
      | ok name =>
        have hvalue := valueOf_named hn htext seen
        cases hshown : m.shown? seen (some n) with
        | error e =>
          have he : e ≠ .endless := fun h => shown?_ne_endless hm seen (some n) (h ▸ hshown)
          exact .of_error he (fun depth => by rw [hvalue, hshown]; rfl) (.inr hstart)
        | ok found =>
          cases found with
          | none =>
            exact .settled rfl (r := .ok (.text s!"<{name}>")) (pure_ne_endless _)
              (fun depth => by rw [hvalue, hshown]; rfl) (.inr hstart)
          | some s =>
            refine .entries rfl (Nat.le_refl 1) (g := toMap) fun depth => ?_
            cases depth with
            | zero => rfl
            | succ depth => rw [hvalue, hshown]; rfl
    by_cases ho : n.unwrap.kind = .object
    · have hshown : m.shown? seen (some n) = .ok (some (seen, n.unwrap)) := by
        rw [shown?]
        simp only [ho]
        rfl
      rw [hshown]
      refine .entries rfl (Nat.le_refl 1) (g := toMap) fun depth => ?_
      cases depth with
      | zero => rfl
      | succ depth => exact valueOf_object ho seen depth
    · obtain ⟨hshown, hends, hsame⟩ := valueOf_plain hn ho seen
      rw [hshown]
      exact .settled rfl hends hsame (.inr hstart)

theorem keyOf?_ne_endless (key : Option Node) : m.keyOf? key ≠ .error .endless := by
  cases key with
  | none => exact pure_ne_endless _
  | some k =>
    have htext := textOf_ne_endless m.source k
    rw [keyOf?]
    obtain ⟨kind, role, start, stop, text, children⟩ := k
    cases kind with
    | propertyName | number | string => exact bind_ne_endless htext fun _ => pure_ne_endless _
    | _ => exact pure_ne_endless _

theorem addProperty_reads (hm : m.Sound) (seen : List String) (data : Table String Value)
    {property : Node} (hp : m.root.Contains property) :
    m.Reads (asked (m.inner? seen property)) fun depth =>
      m.addProperty (depth + 1) seen data property := by
  have hadd (depth : Nat) := @addProperty.eq_2 m seen data property depth
  by_cases hpair : property.kind = .pair
  · simp only [inner?, hadd, hpair]
    have hkey := keyOf?_ne_endless (m := m) (property.child? .key)
    cases hk : m.keyOf? (property.child? .key) with
    | error e => exact .of_error (fun h => hkey (h ▸ hk)) (fun _ => rfl) (.inl rfl)
    | ok key =>
      cases key with
      | none => exact .settled rfl (r := .ok data) (pure_ne_endless _) (fun _ => rfl) (.inl rfl)
      | some key =>
        exact (valueOf_reads hm seen (property.child? .value)).map (Table.insert key · data)
  by_cases hshorthand : property.kind = .shorthand
  · simp only [inner?, hadd, hshorthand]
    cases hk : textOf m.source property with
    | error e => exact .of_error (fun h => textOf_ne_endless _ _ (h ▸ hk)) (fun _ => rfl) (.inl rfl)
    | ok key => exact (valueOf_reads hm seen (some property)).map (Table.insert key · data)
  by_cases hspread : property.kind = .spread
  · simp only [inner?, hadd, hspread]
    have hfound : m.object? m.depth seen property.named.head? ≠ .error .endless :=
      object?_ne_endless hm seen fun x hx => hp.trans (below_named hx).1
    cases ho : m.object? m.depth seen property.named.head? with
    | error e => exact .of_error (fun h => hfound (h ▸ ho)) (fun _ => rfl) (.inl rfl)
    | ok found =>
      cases found with
      | none => exact .settled rfl (r := .ok data) (pure_ne_endless _) (fun _ => rfl) (.inl rfl)
      | some o =>
        exact .entries rfl (Nat.zero_le 1) (s := (seen, o)) (g := (Table.insertAll · data))
          fun _ => rfl
  by_cases hmethod : property.kind = .method
  · simp only [inner?, hadd, hmethod]
    have hkey := keyOf?_ne_endless (m := m) (property.child? .name)
    cases hk : m.keyOf? (property.child? .name) with
    | error e => exact .of_error (fun h => hkey (h ▸ hk)) (fun _ => rfl) (.inl rfl)
    | ok key =>
      cases key <;> exact .settled rfl (r := .ok _) (pure_ne_endless _) (fun _ => rfl) (.inl rfl)
  · simp only [inner?, hadd]
    obtain ⟨kind, role, start, stop, text, children⟩ := property
    cases kind with
    | pair | shorthand | spread | method => contradiction
    | _ => exact .settled rfl (r := .ok data) (pure_ne_endless _) (fun _ => rfl) (.inl rfl)

/-- Where an object literal that is asked for comes from: it stands inside, or behind a constant
that was not seen before. -/
def Known (m : ThemeModule) (seen : List String) (n : Node) (s : List String × Node) : Prop :=
  (s.1 = seen ∧ n.Contains s.2) ∨ ∃ name, name ∉ seen ∧ name ∈ m.constants.keys ∧ s.1 = name :: seen

theorem shown?_known (hm : m.Sound) {seen : List String} {n : Node} {s : List String × Node}
    (hn : m.root.Contains n) (h : m.shown? seen (some n) = .ok (some s)) :
    (m.root.Contains s.2 ∧ s.2.kind = .object) ∧ m.Known seen n s := by
  have hin := Node.contains_unwrap n
  rw [shown?] at h
  generalize n.unwrap = u at h hin
  by_cases hu : u.kind = .identifier ∨ u.kind = .shorthand
  · have hname : ∃ name, textOf m.source u = .ok name ∧
        (if seen.contains name then pure none else do
        return (← m.object? m.depth (name :: seen) (m.constants.get? name)).map (name :: seen, ·)) =
          (.ok (some s) : Reading (Option (List String × Node))) := by
      rcases hu with hk | hk <;> simp only [hk] at h <;> exact bind_eq_ok.mp h
    obtain ⟨name, -, h⟩ := hname
    split_ifs at h with hseen
    · cases h
    obtain ⟨found, hfound, h⟩ := bind_eq_ok.mp h
    obtain ⟨o, rfl, rfl⟩ := Option.map_eq_some_iff.mp (Except.ok.inj h)
    refine ⟨object?_object hm (hm.constants name) hfound,
      .inr ⟨name, by simpa using hseen, ?_, rfl⟩⟩
    -- without a constant of this name there is no object
    cases hget : m.constants.get? name with
    | none =>
      rw [hget] at hfound
      cases hdepth : m.depth <;> rw [hdepth] at hfound <;> cases hfound
    | some c => exact Table.mem_keys.mpr ⟨c, Table.mem_of_get? hget⟩
  · obtain ⟨kind, role, start, stop, text, children⟩ := u
    obtain ⟨hi, hs⟩ := not_or.mp hu
    cases kind with
    | identifier | shorthand => contradiction
    | object =>
      obtain rfl := Option.some.inj (Except.ok.inj h)
      exact ⟨⟨hn.trans hin, rfl⟩, .inl ⟨rfl, hin⟩⟩
    | _ => cases h

theorem inner?_known (hm : m.Sound) {seen : List String} {property : Node} {s : List String × Node}
    (hp : m.root.Contains property) (h : m.inner? seen property = .ok (some s)) :
    (m.root.Contains s.2 ∧ s.2.kind = .object) ∧
      (m.Known seen property s ∨ (property.kind = .spread ∧ s.1 = seen)) := by
  by_cases hpair : property.kind = .pair
  · simp only [inner?, hpair] at h
    obtain ⟨key, -, h⟩ := bind_eq_ok.mp h
    cases key with
    | none => cases h
    | some key =>
      cases hvalue : property.child? .value with
      | none =>
        rw [hvalue] at h
        cases h
      | some value =>
        rw [hvalue] at h
        have hin := Node.contains_child? hvalue
        obtain ⟨hobject, hknown⟩ := shown?_known hm (hp.trans hin) h
        exact ⟨hobject, .inl (hknown.imp_left fun h => ⟨h.1, hin.trans h.2⟩)⟩
  by_cases hshorthand : property.kind = .shorthand
  · simp only [inner?, hshorthand] at h
    obtain ⟨key, -, h⟩ := bind_eq_ok.mp h
    obtain ⟨hobject, hknown⟩ := shown?_known hm hp h
    exact ⟨hobject, .inl hknown⟩
  by_cases hspread : property.kind = .spread
  · simp only [inner?, hspread] at h
    obtain ⟨found, hfound, h⟩ := bind_eq_ok.mp h
    obtain ⟨o, rfl, rfl⟩ := Option.map_eq_some_iff.mp (Except.ok.inj h)
    have hhead : ∀ x ∈ property.named.head?, m.root.Contains x :=
      fun x hx => hp.trans (below_named hx).1
    exact ⟨object?_object hm hhead hfound, .inr ⟨hspread, rfl⟩⟩
  · rw [inner?] at h
    obtain ⟨kind, role, start, stop, text, children⟩ := property
    cases kind with
    | pair | shorthand | spread => contradiction
    | _ => cases h

theorem asked_eq_some {x : Reading (Option (List String × Node))} {s : List String × Node} :
    asked x = some s ↔ x = .ok (some s) := by
  cases x with
  | error e => simp [asked, Except.toOption]
  | ok found => simp [asked, Except.toOption]

theorem ofTree_ne_endless (source : Bytes) (root : Node) : ofTree source root ≠ .error .endless :=
  bind_ne_endless (mapM_ne_endless (constantsOf_ne_endless source) _) fun _ => pure_ne_endless _

theorem sound_of_ofTree {source : Bytes} {root : Node} (h : ofTree source root = .ok m) :
    m.root = root ∧ m.Sound := by
  obtain ⟨parts, hparts, h⟩ := bind_eq_ok.mp h
  obtain rfl := Except.ok.inj h
  refine ⟨rfl, ⟨fun name n hn => ?_, rfl⟩⟩
  obtain ⟨part, hpart, he⟩ :=
    List.mem_flatten.mp ((Table.mem_or_of_get?_insertAll hn).resolve_right nofun)
  obtain ⟨statement, hstatement, hfound⟩ := exists_of_mapM hparts hpart
  exact (Node.contains_named hstatement).trans (constantsOf_contains hfound he)

end ThemeModule
end ThemedCss.Theme
