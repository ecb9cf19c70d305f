import ThemedCss.Output.Basic
import ThemedCss.Proofs.Output.Moved

/-! The prologue does not depend on what stands in holes. -/
namespace ThemedCss.Output
open ThemedCss.Syntax ThemedCss.Style ThemedCss.Text

variable {δ : Difference} {n m : Node}

private theorem importedLocals_alike (hδ : δ.Fair) (h : n.Alike δ m) :
    importedLocals m = importedLocals n := by
  unfold importedLocals
  rw [h.kind]
  split
  · rw [h.text]
  · next hk =>
    rw [List.map_eq_flatMap, List.map_eq_flatMap]
    exact flatMap_alike (h.named (by simp [hk])) fun c _ d hcd => by rw [hcd.text]
  · next hk =>
    rw [List.filterMap_eq_flatMap_toList, List.filterMap_eq_flatMap_toList]
    refine flatMap_alike (h.named (by simp [hk])) fun c _ d hcd => ?_
    rw [Option.map_or, Option.map_or, text_child?_alike hδ hcd (by decide),
      text_child?_alike hδ hcd (by decide)]
  · rfl

private theorem topLevelNamesOf_alike (hδ : δ.Fair) (h : n.Alike δ m) :
    topLevelNamesOf m = topLevelNamesOf n := by
  unfold topLevelNamesOf
  rw [h.kind]
  split
  · next hk =>
    refine flatMap_alike
      (List.rel_filter (fun _ _ hcd => by simp [hcd.kind]) (h.named (by simp [hk])))
      fun c hc d hcd => ?_
    have hclause : c.kind = .importClause := by simpa using (List.mem_filter.mp hc).2
    exact flatMap_alike (hcd.named (by simp [hclause])) fun e _ f hef => importedLocals_alike hδ hef
  · rcases h.child?_of_fair hδ (by decide : Role.declaration ≠ .plain) with ⟨hd, hd'⟩ |
      ⟨d, d', hd, hd', hdd⟩
    · rw [hd, hd']
      exact declaredNames_alike hδ h
    · rw [hd, hd']
      exact declaredNames_alike hδ hdd
  · exact declaredNames_alike hδ h

private theorem topLevelNames_alike (hδ : δ.Fair)
    (h : List.Forall₂ (Node.Alike δ) n.children m.children) : topLevelNames m = topLevelNames n :=
  flatMap_alike (Node.Alike.named_of_children h) fun _ _ _ hst => topLevelNamesOf_alike hδ hst

private theorem isDirective_alike (h : n.Alike δ m) : isDirective m = isDirective n := by
  unfold isDirective
  rw [h.kind]
  by_cases hk : n.kind = .expressionStatement
  · have hnamed := h.named (by simp [hk])
    generalize n.named = ns at hnamed
    generalize m.named = ms at hnamed
    congr 1
    match hnamed with
    | .nil => rfl
    | .cons hcd .nil => simp only [hcd.kind, hcd.text]
    | .cons _ (.cons _ _) => rfl
  · rw [beq_false_of_ne hk, Bool.false_and, Bool.false_and]

/-- The anchor moves with the statements if none of them moves across the limit. -/
theorem anchor?_moved {limit : Nat} {leading : Bool} {found found' : Option Node}
    {ns ms : List Node} (h : List.Forall₂ (Node.Alike δ) ns ms)
    (hlimit : ∀ p, δ.move limit < δ.move p ↔ limit < p)
    (hfound : Option.Rel (Node.Alike δ) found found') :
    Option.Rel (Node.Alike δ) (anchor? limit leading found ns)
      (anchor? (δ.move limit) leading found' ms) := by
  induction h generalizing leading found found' with
  | nil => exact hfound
  | cons hst _ ih =>
    rw [anchor?, anchor?, hst.kind, hst.stop, isDirective_alike hst, if_congr (hlimit _) rfl rfl]
    split_ifs
    · exact hfound
    · exact ih (.some hst)
    · exact ih (.some hst)
    · exact ih hfound

private theorem injection_moved (hzero : δ.move 0 = 0)
    (h : List.Forall₂ (Node.Alike δ) n.children m.children) {limit : Nat}
    (hlimit : ∀ p, δ.move limit < δ.move p ↔ limit < p) (code : String) :
    (injection n code limit).Moved δ.move (injection m code (δ.move limit)) := by
  have hanchor : Option.Rel (Node.Alike δ) (anchor? limit true none n.named)
      (anchor? (δ.move limit) true none m.named) :=
    anchor?_moved (Node.Alike.named_of_children h) hlimit .none
  unfold injection
  rcases Node.rel_cases hanchor with ⟨ha, ha'⟩ | ⟨a, a', ha, ha', haa⟩
  · rw [ha, ha']
    exact ⟨by simp [hzero], by simp [hzero], rfl⟩
  · rw [ha, ha']
    exact ⟨by simp [haa.stop], by simp [haa.stop], rfl⟩

private theorem foldl_min_moved {move : Nat → Nat} (hmono : ∀ a b, a ≤ b → move a ≤ move b)
    {calls calls' : List (Call Named)}
    (h : List.Forall₂ (fun a b => b.span.start = move a.span.start) calls calls') (first : Nat) :
    calls'.foldl (fun n call => min n call.span.start) (move first) =
      move (calls.foldl (fun n call => min n call.span.start) first) := by
  induction h generalizing first with
  | nil => rfl
  | @cons a b calls calls' hab _ ih =>
    have hmin : min (move first) b.span.start = move (min first a.span.start) := by
      rw [hab]
      rcases Nat.le_total first a.span.start with hle | hle
      · rw [Nat.min_eq_left hle, Nat.min_eq_left (hmono _ _ hle)]
      · rw [Nat.min_eq_right hle, Nat.min_eq_right (hmono _ _ hle)]
    rw [List.foldl_cons, List.foldl_cons, hmin, ih]

theorem foldl_min_mem (calls : List (Call Named)) (first : Nat) :
    calls.foldl (fun n call => min n call.span.start) first = first ∨
      ∃ call ∈ calls, calls.foldl (fun n call => min n call.span.start) first =
        call.span.start := by
  induction calls generalizing first with
  | nil => exact .inl rfl
  | cons call rest ih =>
    rw [List.foldl_cons]
    rcases ih (min first call.span.start) with hmin | ⟨c, hc, hmin⟩
    · rcases Nat.le_total first call.span.start with hle | hle
      · exact .inl (hmin.trans (Nat.min_eq_left hle))
      · exact .inr ⟨call, List.mem_cons_self, hmin.trans (Nat.min_eq_right hle)⟩
    · exact .inr ⟨c, List.mem_cons_of_mem _ hc, hmin⟩

/-- Alike modules get the same prologue, at the place where the anchor was moved. -/
theorem prologueEdits_moved (hδ : δ.Fair) (settings : Settings) (hzero : δ.move 0 = 0)
    (hmono : ∀ a b, a ≤ b → δ.move a ≤ δ.move b)
    (h : List.Forall₂ (Node.Alike δ) n.children m.children) {calls calls' : List (Call Named)}
    (hcalls : List.Forall₂ (fun a b => b.span.start = δ.move a.span.start) calls calls')
    (hstart : ∀ call ∈ calls, δ.move call.span.start < δ.move (call.span.start + 1)) :
    List.Forall₂ (Edit.Moved δ.move) (prologueEdits settings n calls)
      (prologueEdits settings m calls') := by
  unfold prologueEdits
  rw [topLevelNames_alike hδ h]
  cases hcalls with
  | nil => cases missingCode settings (topLevelNames n) <;> exact .nil
  | @cons first first' rest rest' hfirst hrest =>
    cases missingCode settings (topLevelNames n) with
    | nil => exact .nil
    | cons part parts =>
      dsimp only
      rw [hfirst, foldl_min_moved hmono hrest]
      refine .cons (injection_moved hzero h (fun p => ⟨fun hp => ?_, fun hp => ?_⟩) _) .nil
      · exact Nat.lt_of_not_le fun hle => Nat.lt_irrefl _ (Nat.lt_of_lt_of_le hp (hmono _ _ hle))
      · refine Nat.lt_of_lt_of_le ?_ (hmono _ _ hp)
        rcases foldl_min_mem rest first.span.start with heq | ⟨call, hcall, heq⟩
        · rw [heq]
          exact hstart first List.mem_cons_self
        · rw [heq]
          exact hstart call (List.mem_cons_of_mem _ hcall)

end ThemedCss.Output
