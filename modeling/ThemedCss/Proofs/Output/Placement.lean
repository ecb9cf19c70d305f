import Mathlib.Data.List.TakeWhile
import ThemedCss.Proofs.Output.FixedPoint
import ThemedCss.Proofs.Output.Prologue

/-! Where the prologue goes: behind the last import before the definitions, else behind the
directives at the top. -/
namespace ThemedCss.Output
open ThemedCss.Syntax ThemedCss.Style ThemedCss.Text

/-- The statements of a module. Comments are none of them, also those with the marks of markup. -/
def statements (root : Node) : List Node :=
  root.named.filter (·.kind != .markupComment)

/-- The statements before the first comment with the marks of markup. -/
def opening (root : Node) : List Node :=
  root.named.takeWhile (·.kind != .markupComment)

def isPreamble (s : Node) : Bool :=
  s.kind == .hashBang || isDirective s

/-- The longest run of hash-bang lines and directives that starts a list of statements and ends
before `limit`. -/
def preamble (limit : Nat) (ns : List Node) : List Node :=
  ns.takeWhile fun s => isPreamble s && decide (s.stop ≤ limit)

def importsBefore (limit : Nat) (ns : List Node) : List Node :=
  ns.filter fun s => s.kind == .importStatement && decide (s.stop ≤ limit)

/-- Where the last statement of a list ends; 0 if there is none. -/
def endOf (ns : List Node) : Nat :=
  (ns.getLast?.map (·.stop)).getD 0

/-- Where code is inserted that has to be seen from `limit` on. -/
def insertionPoint (limit : Nat) (root : Node) : Nat :=
  if importsBefore limit root.named = [] then endOf (preamble limit root.named)
  else endOf (importsBefore limit root.named)

section List

theorem getLast?_or_cons {α : Type} (x : α) (l : List α) (d : Option α) :
    (x :: l).getLast?.or d = l.getLast?.or (some x) := by
  rw [List.getLast?_cons]
  cases l.getLast? with
  | none => rfl
  | some y => rfl

/-- One pass finds the last import it reaches, and without one the last directive of the run it
starts in. -/
theorem anchor?_eq (limit : Nat) (leading : Bool) (found : Option Node) (ns : List Node) :
    anchor? limit leading found ns =
      ((ns.takeWhile fun s => decide (s.stop ≤ limit)).filter
        (·.kind == .importStatement)).getLast?.or
        (if leading then (preamble limit ns).getLast?.or found else found) := by
  induction ns generalizing leading found with
  | nil => cases leading <;> rfl
  | cons s rest ih =>
    rw [anchor?]
    by_cases hlimit : limit < s.stop
    · have hstop : ¬s.stop ≤ limit := Nat.not_le.mpr hlimit
      cases leading <;> simp [hlimit, hstop, preamble]
    · have hstop : s.stop ≤ limit := Nat.not_lt.mp hlimit
      rw [if_neg hlimit]
      by_cases himport : s.kind = .importStatement
      · rw [if_pos himport, ih false (some s)]
        simp [hstop, himport, getLast?_or_cons]
      · rw [if_neg himport]
        have hcond : (leading && (decide (s.kind = .hashBang) || isDirective s)) =
            (leading && isPreamble s) := rfl
        rw [hcond]
        by_cases hlead : (leading && isPreamble s) = true
        · obtain ⟨rfl, hpre⟩ := (Bool.and_eq_true _ _).mp hlead
          rw [if_pos hlead, ih true (some s)]
          simp [hstop, himport, hpre, preamble, getLast?_or_cons]
        · rw [if_neg hlead, ih false found]
          cases leading with
          | false => simp [hstop, himport]
          | true =>
            have hpre : isPreamble s = false := by simpa using hlead
            simp [hstop, himport, hpre, preamble]

private theorem endOf_eq_zero_or_mem (ns : List Node) :
    endOf ns = 0 ∨ ∃ s ∈ ns, s.stop = endOf ns := by
  unfold endOf
  cases hlast : ns.getLast? with
  | none => exact .inl rfl
  | some s => exact .inr ⟨s, List.mem_of_getLast? hlast, rfl⟩

theorem endOf_mem {ns : List Node} (h : ns ≠ []) : ∃ s ∈ ns, s.stop = endOf ns := by
  refine ⟨ns.getLast h, List.getLast_mem h, ?_⟩
  simp [endOf, List.getLast?_eq_some_getLast h]

variable {ns : List Node}

/-- In statements in their order, none ends behind the last one. -/
theorem stop_le_endOf (h : ns.Pairwise fun a b => a.stop ≤ b.stop) {s : Node} (hs : s ∈ ns) :
    s.stop ≤ endOf ns := by
  have hne : ns ≠ [] := List.ne_nil_of_mem hs
  obtain ⟨front, last, rfl⟩ : ∃ front last, ns = front ++ [last] :=
    ⟨_, _, (List.dropLast_append_getLast hne).symm⟩
  have hend : endOf (front ++ [last]) = last.stop := by simp [endOf]
  rw [hend]
  rcases List.mem_append.mp hs with hfront | hlast
  · exact (List.pairwise_append.mp h).2.2 s hfront last List.mem_cons_self
  · rw [List.mem_singleton.mp hlast]

private theorem takeWhile_eq_filter (h : ns.Pairwise fun a b => a.stop ≤ b.stop) (limit : Nat) :
    ns.takeWhile (fun s => decide (s.stop ≤ limit)) =
      ns.filter fun s => decide (s.stop ≤ limit) := by
  induction ns with
  | nil => rfl
  | cons s rest ih =>
    obtain ⟨hs, hrest⟩ := List.pairwise_cons.mp h
    by_cases hstop : s.stop ≤ limit
    · simp [hstop, ih hrest]
    · have hlater : ∀ r ∈ rest, ¬r.stop ≤ limit :=
        fun r hr hle => hstop (Nat.le_trans (hs r hr) hle)
      simpa [hstop] using hlater

end List

/-- A place for code that has to be seen from `limit` on: the end of a statement or the top, behind
all imports that end before `limit` and at the end of one of them, or without one at the end of the
directives that start the module. -/
structure Placed (limit : Nat) (root : Node) (p : Nat) : Prop where
  boundary : p = 0 ∨ ∃ s ∈ statements root, s.stop = p
  before : p ≤ limit
  behindImports : ∀ s ∈ statements root, s.kind = .importStatement → s.stop ≤ limit → s.stop ≤ p
  lastImport : (∃ s ∈ statements root, s.kind = .importStatement ∧ s.stop ≤ limit) →
    ∃ s ∈ statements root, s.kind = .importStatement ∧ s.stop = p
  noImport : (¬∃ s ∈ statements root, s.kind = .importStatement ∧ s.stop ≤ limit) →
    p = endOf (preamble limit (opening root))
  behindDirectives : ∀ s ∈ preamble limit (opening root), s.stop ≤ p
  outside : ∀ s ∈ root.named, s.stop ≤ p ∨ p ≤ s.start

theorem kind_of_isPreamble {s : Node} (h : isPreamble s) :
    s.kind = .hashBang ∨ s.kind = .expressionStatement := by
  unfold isPreamble isDirective at h
  rw [Bool.or_eq_true, Bool.and_eq_true, beq_iff_eq, beq_iff_eq] at h
  exact h.imp_right And.left

/-- No directive is a comment, so those at the top stand before all comments. -/
theorem preamble_opening (limit : Nat) (root : Node) :
    preamble limit (opening root) = preamble limit root.named := by
  unfold preamble opening
  rw [List.takeWhile_takeWhile]
  congr 1
  funext s
  by_cases hpre : isPreamble s
  · have hkind : s.kind ≠ .markupComment := by
      rcases kind_of_isPreamble hpre with hk | hk <;> rw [hk] <;> decide
    simp [hpre, hkind]
  · simp [hpre]

private theorem opening_eq_statements {root : Node}
    (h : ∀ s ∈ root.named, s.kind ≠ .markupComment) : opening root = statements root := by
  have hall : ∀ s ∈ root.named, (s.kind != .markupComment) = true :=
    fun s hs => bne_iff_ne.mpr (h s hs)
  rw [opening, statements, List.takeWhile_eq_self_iff.mpr hall, List.filter_eq_self.mpr hall]

private theorem mem_statements_of_import {root s : Node} (hs : s ∈ root.named)
    (hk : s.kind = .importStatement) : s ∈ statements root :=
  List.mem_filter.mpr ⟨hs, by rw [hk]; rfl⟩

theorem mem_importsBefore {limit : Nat} {root s : Node} : s ∈ importsBefore limit root.named ↔
    s ∈ statements root ∧ s.kind = .importStatement ∧ s.stop ≤ limit := by
  unfold importsBefore
  rw [List.mem_filter, Bool.and_eq_true, beq_iff_eq, decide_eq_true_eq]
  constructor
  · rintro ⟨hs, hk, hstop⟩
    exact ⟨mem_statements_of_import hs hk, hk, hstop⟩
  · rintro ⟨hs, hk, hstop⟩
    exact ⟨(List.mem_filter.mp hs).1, hk, hstop⟩

theorem mem_preamble {limit : Nat} {root s : Node} (hs : s ∈ preamble limit root.named) :
    s ∈ root.named ∧ isPreamble s ∧ s.stop ≤ limit := by
  unfold preamble at hs
  have hp := List.mem_takeWhile_imp hs
  rw [Bool.and_eq_true, decide_eq_true_eq] at hp
  exact ⟨List.takeWhile_subset _ hs, hp⟩

theorem exists_insertionPoint (limit : Nat) (root : Node) : insertionPoint limit root = 0 ∨
    ∃ s ∈ statements root, s.stop = insertionPoint limit root ∧ s.stop ≤ limit := by
  unfold insertionPoint
  split_ifs with hnone
  · rcases endOf_eq_zero_or_mem (preamble limit root.named) with hzero | ⟨s, hs, hstop⟩
    · exact .inl hzero
    · obtain ⟨hnamed, hpre, hlimit⟩ := mem_preamble hs
      refine .inr ⟨s, List.mem_filter.mpr ⟨hnamed, ?_⟩, hstop, hlimit⟩
      rcases kind_of_isPreamble hpre with hk | hk <;> rw [hk] <;> rfl
  · obtain ⟨s, hs, hstop⟩ := endOf_mem hnone
    obtain ⟨hmem, -, hlimit⟩ := mem_importsBefore.mp hs
    exact .inr ⟨s, hmem, hstop, hlimit⟩

section Place
variable {root : Node} (htree : root.Nested)
include htree

theorem named_stops : root.named.Pairwise fun a b => a.stop ≤ b.stop := by
  refine htree.named_pairwise.imp_of_mem fun {a b} _ hb hab => ?_
  have hle := (htree.of_contains (Node.contains_named hb)).le
  omega

theorem injection_eq (code : String) (limit : Nat) :
    ∃ text, injection root code limit =
      ⟨insertionPoint limit root, insertionPoint limit root, text⟩ := by
  have himports : (root.named.takeWhile fun s => decide (s.stop ≤ limit)).filter
      (·.kind == .importStatement) = importsBefore limit root.named := by
    rw [takeWhile_eq_filter (named_stops htree), List.filter_filter]
    rfl
  have hanchor := anchor?_eq limit true none root.named
  rw [himports, if_pos rfl, Option.or_none] at hanchor
  have hpoint : insertionPoint limit root =
      ((anchor? limit true none root.named).map (·.stop)).getD 0 := by
    rw [hanchor]
    unfold insertionPoint endOf
    by_cases hnone : importsBefore limit root.named = []
    · simp [hnone]
    · rw [if_neg hnone, List.getLast?_eq_some_getLast hnone]
      rfl
  rw [hpoint]
  unfold injection
  cases anchor? limit true none root.named with
  | none => exact ⟨_, rfl⟩
  | some a => exact ⟨_, rfl⟩

/-- Directives at the top stand before every import. -/
theorem preamble_before_imports {limit : Nat} {s a : Node} (hs : s ∈ preamble limit root.named)
    (ha : a ∈ importsBefore limit root.named) : s.stop ≤ a.stop := by
  obtain ⟨hmem, hkind, -⟩ := mem_importsBefore.mp ha
  have hnamed : a ∈ root.named := (List.mem_filter.mp hmem).1
  have hsplit := named_stops htree
  rw [← List.takeWhile_append_dropWhile (p := fun s => isPreamble s && decide (s.stop ≤ limit))
    (l := root.named)]
    at hsplit hnamed
  rcases List.mem_append.mp hnamed with hfront | hback
  · rcases kind_of_isPreamble (mem_preamble hfront).2.1 with hk | hk <;> rw [hkind] at hk
      <;> cases hk
  · exact (List.pairwise_append.mp hsplit).2.2 s hs a hback

private theorem outside_statements {s a : Node} (hs : s ∈ root.named) (ha : a ∈ root.named) :
    s.stop ≤ a.stop ∨ a.stop ≤ s.start := by
  have hlater : root.named.Pairwise fun x y => x.stop ≤ y.stop ∨ y.stop ≤ x.start :=
    (named_stops htree).imp fun hxy => .inl hxy
  have hearlier : root.named.Pairwise (flip fun x y => x.stop ≤ y.stop ∨ y.stop ≤ x.start) :=
    htree.named_pairwise.imp fun hxy => .inr hxy
  exact hlater.forall_of_forall_of_flip (fun _ _ => .inl (Nat.le_refl _)) hearlier hs ha

theorem placed_insertionPoint (limit : Nat) : Placed limit root (insertionPoint limit root) := by
  have hsorted : (importsBefore limit root.named).Pairwise fun a b => a.stop ≤ b.stop :=
    (named_stops htree).filter _
  have hrun : (preamble limit root.named).Pairwise fun a b => a.stop ≤ b.stop :=
    (named_stops htree).sublist (List.takeWhile_sublist _)
  have himports : ∀ s ∈ statements root, s.kind = .importStatement → s.stop ≤ limit →
      s.stop ≤ insertionPoint limit root := by
    intro s hs hk hstop
    have hmem := mem_importsBefore.mpr ⟨hs, hk, hstop⟩
    rw [insertionPoint, if_neg (List.ne_nil_of_mem hmem)]
    exact stop_le_endOf hsorted hmem
  refine ⟨?_, ?_, himports, ?_, ?_, ?_, ?_⟩
  · exact (exists_insertionPoint limit root).imp_right fun ⟨s, hs, hstop, _⟩ => ⟨s, hs, hstop⟩
  · rcases exists_insertionPoint limit root with hzero | ⟨s, -, hstop, hle⟩
    · omega
    · omega
  · rintro ⟨s, hs, hk, hstop⟩
    have hne := List.ne_nil_of_mem (mem_importsBefore.mpr ⟨hs, hk, hstop⟩)
    obtain ⟨a, ha, hend⟩ := endOf_mem hne
    obtain ⟨hmem, hkind, -⟩ := mem_importsBefore.mp ha
    rw [insertionPoint, if_neg hne]
    exact ⟨a, hmem, hkind, hend⟩
  · intro hnone
    have hnil : importsBefore limit root.named = [] :=
      List.eq_nil_iff_forall_not_mem.mpr fun s hs => hnone ⟨s, mem_importsBefore.mp hs⟩
    rw [preamble_opening, insertionPoint, if_pos hnil]
  · intro s hs
    rw [preamble_opening] at hs
    unfold insertionPoint
    split_ifs with hnone
    · exact stop_le_endOf hrun hs
    · obtain ⟨a, ha, hend⟩ := endOf_mem hnone
      exact hend ▸ preamble_before_imports htree hs ha
  · intro s hs
    rcases exists_insertionPoint limit root with hzero | ⟨a, ha, hend, -⟩
    · omega
    · rw [← hend]
      exact outside_statements htree hs (List.mem_filter.mp ha).1

end Place

/-- The definitions have a first one, and the prologue is placed for it. -/
theorem exists_prologueEdits {settings : Settings} {root : Node} {calls : List (Call Named)}
    (htree : root.Nested) (hcalls : calls ≠ [])
    (hmissing : missingCode settings (topLevelNames root) ≠ []) :
    ∃ first ∈ calls, (∀ call ∈ calls, first.span.start ≤ call.span.start) ∧ ∃ text,
      prologueEdits settings root calls =
        [⟨insertionPoint first.span.start root, insertionPoint first.span.start root, text⟩] := by
  cases calls with
  | nil => exact absurd rfl hcalls
  | cons head rest =>
    generalize hlimit : rest.foldl (fun n call => min n call.span.start) head.span.start = limit
    have hedits : ∃ code, prologueEdits settings root (head :: rest) =
        [injection root code limit] := by
      unfold prologueEdits
      cases hparts : missingCode settings (topLevelNames root) with
      | nil => exact absurd hparts hmissing
      | cons part parts => exact ⟨_, by rw [← hlimit]⟩
    have hle := @foldl_min_le rest head.span.start
    rw [hlimit] at hle
    have hall : ∀ call ∈ head :: rest, limit ≤ call.span.start := List.forall_mem_cons.mpr hle
    have hfirst : ∃ first ∈ head :: rest, first.span.start = limit := by
      rcases foldl_min_mem rest head.span.start with heq | ⟨call, hcall, heq⟩
      · exact ⟨head, List.mem_cons_self, heq.symm.trans hlimit⟩
      · exact ⟨call, List.mem_cons_of_mem _ hcall, heq.symm.trans hlimit⟩
    obtain ⟨first, hmem, rfl⟩ := hfirst
    obtain ⟨code, hcode⟩ := hedits
    obtain ⟨text, htext⟩ := injection_eq htree code first.span.start
    exact ⟨first, hmem, hall, text, by rw [hcode, htext]⟩

/-- The prologue is one insertion before all definitions: behind the last import that ends before
the first of them, else behind the directives at the top, else at the top. It is never put into a
statement. Directives are looked for up to the first comment with the marks of markup, so in modules
without such comments it is behind all leading ones. -/
theorem prologue_placed (settings : Settings) (root : Node) (calls : List (Call Named))
    (htree : root.Nested) (hcalls : calls ≠ [])
    (hmissing : missingCode settings (topLevelNames root) ≠ []) :
    (∃ first ∈ calls, (∀ call ∈ calls, first.span.start ≤ call.span.start) ∧
      ∃ (p : Nat) (text : Bytes),
      prologueEdits settings root calls = [⟨p, p, text⟩] ∧ Placed first.span.start root p ∧
        ∀ call ∈ calls, p ≤ call.span.start) ∧
      ((∀ s ∈ root.named, s.kind ≠ .markupComment) → opening root = statements root) := by
  obtain ⟨first, hfirst, hmin, text, hedits⟩ := exists_prologueEdits htree hcalls hmissing
  have hplaced := placed_insertionPoint htree first.span.start
  refine ⟨⟨first, hfirst, hmin, insertionPoint first.span.start root, text, hedits, hplaced, ?_⟩,
    opening_eq_statements⟩
  exact fun call hcall => Nat.le_trans hplaced.before (hmin call hcall)

/-- A definition between two imports, behind a directive and a variable. -/
def importsAround : String :=
  "'use x';import'a';var __flairCreateStyles;f(()=>(\x7b\x7d));import'b'"

def shortSettings : Settings :=
  { Settings.ofTheme "t" with factory := "f", marker := "m" }

theorem prologue_placed_between :
    let root := parse .script importsAround.toList
    let calls :=
      (Dependency.allStatic (scan shortSettings (encode importsAround) root "a.js").calls).map
      (Call.named (fileId "a.js"))
    root.Nested ∧ calls ≠ [] ∧ missingCode shortSettings (topLevelNames root) ≠ [] ∧
      ∃ first ∈ calls, ∃ (p : Nat) (text : Bytes), prologueEdits shortSettings root calls =
        [⟨p, p, text⟩] ∧ Placed first.span.start root p := by
  intro root calls
  have hrun : TreeOf (encode importsAround) root ∧ calls.length = 1 ∧
      (missingCode shortSettings (topLevelNames root)).length = 1 := by
    decide +kernel
  have hcalls : calls ≠ [] := List.ne_nil_of_length_pos (by omega)
  have hmissing : missingCode shortSettings (topLevelNames root) ≠ [] :=
    List.ne_nil_of_length_pos (by omega)
  obtain ⟨⟨first, hfirst, -, p, text, hedits, hplaced, -⟩, -⟩ :=
    prologue_placed shortSettings root calls hrun.1.nested hcalls hmissing
  exact ⟨hrun.1.nested, hcalls, hmissing, first, hfirst, p, text, hedits, hplaced⟩

/-- A directive behind a comment with the marks of markup. -/
def markedDirective : String :=
  "<!-- c\n'use x';var __flairCreateStyles;f(()=>(\x7b\x7d))"

/-- The prologue is put before a leading directive: the comment in front of it counts as a
statement. -/
theorem prologue_before_directive :
    let root := parse .script markedDirective.toList
    let calls :=
      (Dependency.allStatic (scan shortSettings (encode markedDirective) root "a.js").calls).map
      (Call.named (fileId "a.js"))
    TreeOf (encode markedDirective) root ∧ calls.map (·.span.start) = [39] ∧
      (prologueEdits shortSettings root calls).map (·.stop) = [0] ∧
      importsBefore 39 (statements root) = [] ∧ endOf (preamble 39 (statements root)) = 15 := by
  decide +kernel

end ThemedCss.Output
