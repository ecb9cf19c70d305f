import ThemedCss.Proofs.Dependency.Graph
import ThemedCss.Proofs.Dependency.Reads
import ThemedCss.Style.Scan

/-! Labels say whether a value depends on something dynamic, in whatever order calls are looked
at. -/
namespace ThemedCss.Dependency
open ThemedCss.Syntax ThemedCss.Scope ThemedCss.Style ThemedCss.Text

variable {c : Context} {g : Ground} {calls : List (Call Interpolation)}

theorem forall₂_flatMap {α β γ : Type} {R : β → γ → Prop} {l : List α} {f : α → List β}
    {f' : α → List γ} (h : ∀ x ∈ l, List.Forall₂ R (f x) (f' x)) :
    List.Forall₂ R (l.flatMap f) (l.flatMap f') := by
  have hself : List.Forall₂ (fun x y => x = y ∧ x ∈ l) l l :=
    List.forall₂_same.mpr fun x hx => ⟨rfl, hx⟩
  exact List.rel_flatMap hself fun x y hxy => hxy.1 ▸ h x hxy.2

/-- What interpolations read answers what they ask for. -/
theorem answers_callReads (c : Context) (g : Ground) (calls : List (Call Interpolation)) :
    List.Forall₂ (c.Answers g (scopesOf calls)) (calls.flatMap callQuestions)
      (calls.flatMap (callReads c)) := by
  refine forall₂_flatMap fun call hcall => forall₂_flatMap fun i _ => ?_
  unfold questionsOf interpolationReads
  split_ifs
  · exact .nil
  · rw [List.forall₂_map_left_iff, List.forall₂_map_right_iff, List.forall₂_same]
    exact fun r _ => .inStyle (List.mem_map.mpr ⟨call, hcall, rfl⟩)

/-- The interpolations' reads are answered as the rules say. -/
theorem tellAll_callReads (hc : c.Holds g) (calls : List (Call Interpolation)) :
    TellAll g (calls.flatMap (callReads c)) (Asked calls) := by
  have htell := TellAll.of_forall₂ (answers_callReads c g calls) fun _ _ h => h.tells hc
  simpa only [mem_flatMap_callQuestions] using htell

theorem key_callReads_mem (hc : c.Holds g) {a : Answer} (ha : a ∈ calls.flatMap (callReads c)) :
    a.key ∈ c.nodes (scopesOf calls) := by
  obtain ⟨q, -, hqa⟩ := exists_of_mem_forall₂ (answers_callReads c g calls) ha
  exact hqa.key_mem hc

section Exploration

variable {scopes : List StyleScope} {keys : List Key}

/-- Every entry holds what its node reads; the two roots read nothing. -/
theorem explore_eq_map (c : Context) (scopes : List StyleScope) (keys : List Key) :
    explore c scopes keys = (explore c scopes keys).keys.map fun k => (k, c.reads scopes k) := by
  obtain ⟨new, heq, -⟩ :=
    Table.grow_eq_append (c.reads scopes) (·.map (·.key)) (keyCount c scopes) keys
      [(.dynamic, []), (.static, [])]
  rw [explore, heq]
  simp [Table.keys, Context.reads, Function.comp_def]

theorem mem_explore {k : Key} {answers : List Answer} :
    (k, answers) ∈ explore c scopes keys ↔
      k ∈ (explore c scopes keys).keys ∧ answers = c.reads scopes k := by
  rw [explore_eq_map]
  simp only [List.mem_map, Prod.mk.injEq, Table.keys_map_pair]
  constructor
  · rintro ⟨j, hj, rfl, rfl⟩
    exact ⟨hj, rfl⟩
  · rintro ⟨hk, rfl⟩
    exact ⟨k, hk, rfl, rfl⟩

theorem root_mem_explore :
    Key.dynamic ∈ (explore c scopes keys).keys ∧ Key.static ∈ (explore c scopes keys).keys :=
  ⟨Table.keys_subset_grow _ _ _ _ _ (by simp [Table.keys]),
    Table.keys_subset_grow _ _ _ _ _ (by simp [Table.keys])⟩

theorem nodup_explore : (explore c scopes keys).keys.Nodup :=
  Table.nodup_keys_grow _ _ _ _ (by simp [Table.keys])

theorem reads_root {k : Key} (hk : k ∈ [Key.dynamic, .static]) : c.reads scopes k = [] := by
  simp only [List.mem_cons, List.not_mem_nil, or_false] at hk
  rcases hk with rfl | rfl <;> rfl

/-- Nothing is left out: there are more rounds than nodes that can come up. -/
theorem explore_closed (hc : c.Holds g) (hkeys : ∀ k ∈ keys, k ∈ c.nodes scopes) :
    (∀ k ∈ keys, k ∈ (explore c scopes keys).keys) ∧
      ∀ k ∈ (explore c scopes keys).keys, ∀ a ∈ c.reads scopes k, a.key ∈
        (explore c scopes keys).keys := by
  obtain ⟨hfirst, hclosed⟩ :=
    Table.grow_closed (c.reads scopes) (·.map (·.key)) (c.nodes scopes).toFinset
      (fun k hk j hj => by
        obtain ⟨a, ha, rfl⟩ := List.mem_map.mp hj
        exact List.mem_toFinset.mpr (Context.key_reads_mem hc (List.mem_toFinset.mp hk) ha))
      (keyCount c scopes) keys [(.dynamic, []), (.static, [])]
        (fun k hk => List.mem_toFinset.mpr (hkeys k hk))
      (((Finset.card_le_card Finset.sdiff_subset).trans (List.toFinset_card_le _)).trans_lt
        (c.length_nodes_lt scopes))
  refine ⟨hfirst, fun k hk a ha => ?_⟩
  by_cases hroot : k ∈ Table.keys [((.dynamic : Key), ([] : List Answer)), (.static, [])]
  · rw [reads_root hroot] at ha
    cases ha
  · exact hclosed k hk hroot a.key (List.mem_map.mpr ⟨a, ha, rfl⟩)

def Answered (c : Context) (scopes : List StyleScope) (k d : Key) : Prop :=
  ∃ a ∈ c.reads scopes k, a.key = d

/-- All nodes found are among the roots or come from the given ones. -/
theorem exists_path_of_mem_explore {k : Key} (hk : k ∈ (explore c scopes keys).keys) :
    k = .dynamic ∨ k = .static ∨ ∃ j ∈ keys, Relation.ReflTransGen (Answered c scopes) j k := by
  obtain ⟨new, heq, -, -, hreach⟩ :=
    Table.grow_eq_append (c.reads scopes) (·.map (·.key)) (keyCount c scopes) keys
      [(.dynamic, []), (.static, [])]
  rw [explore, heq, Table.keys_append, Table.keys_map_pair, List.mem_append] at hk
  simp only [Table.keys, List.map_cons, List.map_nil, List.mem_cons, List.not_mem_nil,
    or_false] at hk
  rcases hk with (rfl | rfl) | hk
  · exact .inl rfl
  · exact .inr (.inl rfl)
  · obtain ⟨j, hj, hjk⟩ := hreach k hk
    refine .inr (.inr ⟨j, hj, Relation.ReflTransGen.mono (fun i d hd => ?_) _ _ hjk⟩)
    simpa [Table.Names, Answered] using hd

end Exploration

/-- All answers that classifying calls asks for: those of the interpolations and those of the nodes
found. -/
def allAnswers (c : Context) (calls : List (Call Interpolation)) : List Answer :=
  calls.flatMap (callReads c) ++
    (explore c (scopesOf calls) ((calls.flatMap (callReads c)).map (·.key))).flatMap (·.2)

def found (c : Context) (calls : List (Call Interpolation)) : List Key :=
  (explore c (scopesOf calls) ((calls.flatMap (callReads c)).map (·.key))).keys

theorem mem_allAnswers {a : Answer} :
    a ∈ allAnswers c calls ↔ a ∈ calls.flatMap (callReads c) ∨
      ∃ k ∈ found c calls, a ∈ c.reads (scopesOf calls) k := by
  simp only [allAnswers, List.mem_append, List.mem_flatMap (l := explore _ _ _), Prod.exists,
    mem_explore, found]
  refine or_congr_right ⟨?_, ?_⟩
  · rintro ⟨k, answers, ⟨hk, rfl⟩, ha⟩
    exact ⟨k, hk, ha⟩
  · rintro ⟨k, hk, ha⟩
    exact ⟨k, _, ⟨hk, rfl⟩, ha⟩

theorem found_closed (hc : c.Holds g) :
    (∀ a ∈ calls.flatMap (callReads c), a.key ∈ found c calls) ∧
      ∀ k ∈ found c calls, ∀ a ∈ c.reads (scopesOf calls) k, a.key ∈ found c calls := by
  have hkeys : ∀ k ∈ (calls.flatMap (callReads c)).map (·.key), k ∈ c.nodes (scopesOf calls) := by
    intro k hk
    obtain ⟨a, ha, rfl⟩ := List.mem_map.mp hk
    exact key_callReads_mem hc ha
  obtain ⟨hfirst, hclosed⟩ := explore_closed hc hkeys
  exact ⟨fun a ha => hfirst _ (List.mem_map.mpr ⟨a, ha, rfl⟩), hclosed⟩

theorem found_subset_nodes (hc : c.Holds g) {k : Key} (hk : k ∈ found c calls) :
    k ∈ c.nodes (scopesOf calls) := by
  obtain rfl | rfl | ⟨j, hj, hjk⟩ := exists_path_of_mem_explore hk
  · exact Context.dynamic_mem_nodes
  · exact Context.static_mem_nodes
  · clear hk
    obtain ⟨a, ha, rfl⟩ := List.mem_map.mp hj
    induction hjk with
    | refl => exact key_callReads_mem hc ha
    | tail _ hstep ih =>
      obtain ⟨b, hb, rfl⟩ := hstep
      exact Context.key_reads_mem hc ih hb

section Faultless

variable (hc : c.Holds g) (hn : ((scopesOf calls).map (·.callSite)).Nodup)
include hc hn

/-- A node that was found reads what its answers without fault say. -/
theorem reads_iff_of_mem_found {k d : Key} (hk : k ∈ found c calls) :
    Reads g (scopesOf calls) k d ↔ ∃ a ∈ c.reads (scopesOf calls) k, a.fault = none ∧ a.key = d :=
  (Context.tellAll_reads hc hn (found_subset_nodes hc hk)).exists_means_iff

/-- What can be reached is found. -/
theorem mem_found_of_reachable {k : Key} (hk : Reachable g calls k) : k ∈ found c calls := by
  obtain ⟨q, d, hq, hd, hdk⟩ := hk
  induction hdk with
  | refl =>
    obtain ⟨a, ha, -, rfl⟩ := (tellAll_callReads hc calls).exists_means_iff.mp ⟨q, hq, hd⟩
    exact (found_closed hc).1 a ha
  | tail _ hstep ih =>
    obtain ⟨a, ha, -, rfl⟩ := (reads_iff_of_mem_found hc hn ih).mp hstep
    exact (found_closed hc).2 _ ih a ha

/-- If every question leads somewhere, only what can be reached is found, apart from the roots. -/
theorem reachable_of_mem_found (ha : Answerable g calls) {k : Key} (hk : k ∈ found c calls) :
    k = .dynamic ∨ k = .static ∨ Reachable g calls k := by
  obtain rfl | rfl | ⟨j, hj, hjk⟩ := exists_path_of_mem_explore hk
  · exact .inl rfl
  · exact .inr (.inl rfl)
  refine .inr (.inr ?_)
  clear hk
  obtain ⟨a, hmem, rfl⟩ := List.mem_map.mp hj
  induction hjk with
  | refl =>
    have hf := (tellAll_callReads hc calls).faultless_iff.mpr ha.1 a hmem
    obtain ⟨q, hq, hqa⟩ := (tellAll_callReads hc calls).exists_means_iff.mpr ⟨a, hmem, hf, rfl⟩
    exact ⟨q, a.key, hq, hqa, .refl⟩
  | tail _ hstep ih =>
    obtain ⟨b, hb, rfl⟩ := hstep
    have hfound := mem_found_of_reachable hc hn ih
    have htell := Context.tellAll_reads hc hn (found_subset_nodes hc hfound)
    have hf := htell.faultless_iff.mpr (ha.2 _ ih) b hb
    obtain ⟨q, d, hq, hd, hpath⟩ := ih
    exact ⟨q, d, hq, hd, hpath.tail ((reads_iff_of_mem_found hc hn hfound).mpr ⟨b, hb, hf, rfl⟩)⟩

/-- No answer has a fault exactly if every question that comes up leads somewhere. -/
theorem faultless_iff_answerable :
    (∀ a ∈ allAnswers c calls, a.fault = none) ↔ Answerable g calls := by
  constructor
  · intro hf
    refine ⟨(tellAll_callReads hc calls).faultless_iff.mp fun a ha =>
      hf a (mem_allAnswers.mpr (.inl ha)), ?_⟩
    intro k hk
    have hfound := mem_found_of_reachable hc hn hk
    refine (Context.tellAll_reads hc hn (found_subset_nodes hc hfound)).faultless_iff.mp
      fun a ha => ?_
    exact hf a (mem_allAnswers.mpr (.inr ⟨k, hfound, ha⟩))
  · intro ha a hmem
    rcases mem_allAnswers.mp hmem with hmem | ⟨k, hk, hmem⟩
    · exact (tellAll_callReads hc calls).faultless_iff.mpr ha.1 a hmem
    · obtain rfl | rfl | hr := reachable_of_mem_found hc hn ha hk
      · simp [Context.reads] at hmem
      · simp [Context.reads] at hmem
      · exact (Context.tellAll_reads hc hn (found_subset_nodes hc hk)).faultless_iff.mpr
          (ha.2 k hr) a hmem

end Faultless

theorem mem_found_of_path (hc : c.Holds g) {k d : Key} (hk : k ∈ found c calls)
    (hpath : Relation.ReflTransGen (Answered c (scopesOf calls)) k d) : d ∈ found c calls := by
  induction hpath with
  | refl => exact hk
  | tail _ hstep ih =>
    obtain ⟨a, ha, rfl⟩ := hstep
    exact (found_closed hc).2 _ ih a ha

section Following

variable {scopes : List StyleScope} {depth : Nat} {a : Answer} {answers rest : List Answer}
  {seen new : List Key}

@[simp] theorem follow_nil : follow c scopes (depth + 1) [] seen = .ok seen := rfl

theorem follow_fault {f : LinkFault} (ha : a.fault = some f) :
    follow c scopes (depth + 1) (a :: rest) seen = .error f := by
  rw [follow, List.foldlM_cons, ha]
  rfl

theorem follow_seen (ha : a.fault = none) (hk : a.key ∈ seen) :
    follow c scopes (depth + 1) (a :: rest) seen = follow c scopes (depth + 1) rest seen := by
  have hcontains : seen.contains a.key = true := by simpa using hk
  rw [follow, List.foldlM_cons, ha, hcontains]
  rfl

theorem follow_new (ha : a.fault = none) (hk : a.key ∉ seen) :
    follow c scopes (depth + 1) (a :: rest) seen =
      (follow c scopes depth (c.reads scopes a.key) (seen ++ [a.key])).bind
        (follow c scopes (depth + 1) rest) := by
  have hcontains : seen.contains a.key = false := by simpa using hk
  rw [follow, List.foldlM_cons, ha, hcontains]
  rfl

/-- The nodes `new` are what there was to follow: they have no fault and lead to no node that was
not followed. -/
structure Followed (c : Context) (scopes : List StyleScope) (answers : List Answer)
    (seen new : List Key) : Prop where
  nodup : (seen ++ new).Nodup
  asked : ∀ a ∈ answers, a.fault = none ∧ a.key ∈ seen ++ new
  closed : ∀ k ∈ new, ∀ a ∈ c.reads scopes k, a.fault = none ∧ a.key ∈ seen ++ new
  reached : ∀ k ∈ new, ∃ a ∈ answers, Relation.ReflTransGen (Answered c scopes) a.key k

theorem Followed.nil (hseen : seen.Nodup) : Followed c scopes [] seen [] :=
  ⟨by simpa using hseen, by simp, by simp, by simp⟩

theorem Followed.of_seen (ha : a.fault = none) (hk : a.key ∈ seen)
    (h : Followed c scopes rest seen new) : Followed c scopes (a :: rest) seen new where
  nodup := h.nodup
  asked := List.forall_mem_cons.mpr ⟨⟨ha, List.mem_append_left _ hk⟩, h.asked⟩
  closed := h.closed
  reached k hk := by
    obtain ⟨b, hb, hpath⟩ := h.reached k hk
    exact ⟨b, List.mem_cons_of_mem _ hb, hpath⟩

theorem Followed.of_new {inner : List Key} (ha : a.fault = none)
    (hinner : Followed c scopes (c.reads scopes a.key) (seen ++ [a.key]) inner)
    (h : Followed c scopes rest (seen ++ [a.key] ++ inner) new) :
    Followed c scopes (a :: rest) seen (a.key :: (inner ++ new)) := by
  have happend : seen ++ a.key :: (inner ++ new) = seen ++ [a.key] ++ inner ++ new := by simp
  have hearlier : ∀ k, k ∈ seen ++ [a.key] ++ inner → k ∈ seen ++ [a.key] ++ inner ++ new :=
    fun k hk => List.mem_append_left _ hk
  refine ⟨happend ▸ h.nodup, ?_, ?_, ?_⟩
  · rw [happend, List.forall_mem_cons]
    exact ⟨⟨ha, hearlier _ (by simp)⟩, h.asked⟩
  · rw [happend]
    intro k hk b hb
    rcases List.mem_cons.mp hk with rfl | hk
    · exact ⟨(hinner.asked b hb).1, hearlier _ (hinner.asked b hb).2⟩
    rcases List.mem_append.mp hk with hk | hk
    · exact ⟨(hinner.closed k hk b hb).1, hearlier _ (hinner.closed k hk b hb).2⟩
    · exact h.closed k hk b hb
  · intro k hk
    rcases List.mem_cons.mp hk with rfl | hk
    · exact ⟨a, List.mem_cons_self, .refl⟩
    rcases List.mem_append.mp hk with hk | hk
    · obtain ⟨b, hb, hpath⟩ := hinner.reached k hk
      exact ⟨a, List.mem_cons_self, .head ⟨b, hb, rfl⟩ hpath⟩
    · obtain ⟨b, hb, hpath⟩ := h.reached k hk
      exact ⟨b, List.mem_cons_of_mem _ hb, hpath⟩

/-- A fault comes up among answers, or among the reads of a node that they lead to. -/
def Faulty (c : Context) (scopes : List StyleScope) (answers : List Answer) (f : LinkFault) :
    Prop :=
  ∃ b, b.fault = some f ∧
    (b ∈ answers ∨ ∃ a ∈ answers, ∃ k, Relation.ReflTransGen (Answered c scopes) a.key k ∧
      b ∈ c.reads scopes k)

theorem Faulty.cons {f : LinkFault} (h : Faulty c scopes rest f) :
    Faulty c scopes (a :: rest) f := by
  obtain ⟨b, hb, hmem | ⟨d, hd, hpath⟩⟩ := h
  · exact ⟨b, hb, .inl (List.mem_cons_of_mem _ hmem)⟩
  · exact ⟨b, hb, .inr ⟨d, List.mem_cons_of_mem _ hd, hpath⟩⟩

theorem Faulty.of_reads {f : LinkFault} (h : Faulty c scopes (c.reads scopes a.key) f) :
    Faulty c scopes (a :: rest) f := by
  obtain ⟨b, hb, hmem | ⟨d, hd, k, hpath, hmem⟩⟩ := h
  · exact ⟨b, hb, .inr ⟨a, List.mem_cons_self, a.key, .refl, hmem⟩⟩
  · exact ⟨b, hb, .inr ⟨a, List.mem_cons_self, k, .head ⟨d, hd, rfl⟩ hpath, hmem⟩⟩

/-- With a level for each node that is not seen, following leaves nothing out or ends at a fault. -/
theorem follow_cases (hc : c.Holds g) (hkeys : ∀ a ∈ answers, a.key ∈ c.nodes scopes)
    (hseen : seen.Nodup) (hdepth : ((c.nodes scopes).toFinset \ seen.toFinset).card < depth) :
    (∃ new, follow c scopes depth answers seen = .ok (seen ++ new) ∧
      Followed c scopes answers seen new) ∨
      ∃ f, follow c scopes depth answers seen = .error f ∧ Faulty c scopes answers f := by
  induction depth generalizing answers seen with
  | zero => omega
  | succ depth ih =>
    induction answers generalizing seen with
    | nil => exact .inl ⟨[], by simp, .nil hseen⟩
    | cons a rest ihrest =>
      obtain ⟨hkey, hkeys⟩ := List.forall_mem_cons.mp hkeys
      cases ha : a.fault with
      | some f => exact .inr ⟨f, follow_fault ha, a, ha, .inl List.mem_cons_self⟩
      | none =>
        by_cases hk : a.key ∈ seen
        · rw [follow_seen ha hk]
          obtain ⟨new, hok, hfollowed⟩ | ⟨f, herr, hfaulty⟩ := ihrest hkeys hseen hdepth
          · exact .inl ⟨new, hok, hfollowed.of_seen ha hk⟩
          · exact .inr ⟨f, herr, hfaulty.cons⟩
        · rw [follow_new ha hk]
          have hseen' : (seen ++ [a.key]).Nodup := by
            simpa [List.nodup_append] using ⟨hseen, fun j hj hja => hk (hja ▸ hj)⟩
          -- the node of this answer is one that was not seen
          have hless : ((c.nodes scopes).toFinset \ (seen ++ [a.key]).toFinset).card < depth := by
            have hlt :=
              Table.card_sdiff_append_lt (c.nodes scopes).toFinset (List.mem_toFinset.mpr hkey) hk
                (List.mem_singleton_self a.key)
            omega
          obtain ⟨inner, hok, hinner⟩ | ⟨f, herr, hfaulty⟩ :=
            ih (fun b hb => Context.key_reads_mem hc hkey hb) hseen' hless
          · rw [hok]
            have hrest : ((c.nodes scopes).toFinset \ (seen ++ [a.key] ++ inner).toFinset).card <
                depth + 1 := by
              refine (Finset.card_le_card
                (Finset.sdiff_subset_sdiff (Finset.Subset.refl _) ?_)).trans_lt hdepth
              intro k hk
              simp only [List.mem_toFinset, List.mem_append] at hk ⊢
              exact .inl (.inl hk)
            obtain ⟨new, hok', hfollowed⟩ | ⟨f, herr, hfaulty⟩ := ihrest hkeys hinner.nodup hrest
            · refine .inl ⟨a.key :: (inner ++ new), ?_, .of_new ha hinner hfollowed⟩
              rw [show seen ++ a.key :: (inner ++ new) = seen ++ [a.key] ++ inner ++ new by simp]
              exact hok'
            · exact .inr ⟨f, herr, hfaulty.cons⟩
          · rw [herr]
            exact .inr ⟨f, rfl, hfaulty.of_reads⟩

/-- From a node that was followed, one comes to no other nodes. -/
theorem Followed.mem_of_path (h : Followed c scopes answers seen new)
    (hseen : ∀ k ∈ seen, c.reads scopes k = []) {k d : Key} (hk : k ∈ seen ++ new)
    (hpath : Relation.ReflTransGen (Answered c scopes) k d) : d ∈ seen ++ new := by
  induction hpath with
  | refl => exact hk
  | @tail j d _ hstep ih =>
    obtain ⟨a, ha, rfl⟩ := hstep
    rcases List.mem_append.mp ih with hj | hj
    · rw [hseen j hj] at ha
      cases ha
    · exact (h.closed j hj a ha).2

/-- Following the reads of all interpolations leads to the nodes that are found, or to a fault. -/
theorem follow_calls (hc : c.Holds g) (calls : List (Call Interpolation)) :
    (∃ new, follow c (scopesOf calls) (keyCount c (scopesOf calls)) (calls.flatMap (callReads c))
      [.dynamic, .static] = .ok ([.dynamic, .static] ++ new) ∧
        Followed c (scopesOf calls) (calls.flatMap (callReads c)) [.dynamic, .static] new) ∨
      ∃ f, follow c (scopesOf calls) (keyCount c (scopesOf calls)) (calls.flatMap (callReads c))
        [.dynamic, .static] =
          .error f ∧ Faulty c (scopesOf calls) (calls.flatMap (callReads c)) f := by
  have hcount :
      ((c.nodes (scopesOf calls)).toFinset \ ([.dynamic, .static] : List Key).toFinset).card <
      keyCount c (scopesOf calls) :=
    ((Finset.card_le_card Finset.sdiff_subset).trans (List.toFinset_card_le _)).trans_lt
      (c.length_nodes_lt _)
  exact follow_cases hc (fun a ha => key_callReads_mem hc ha) (by decide) hcount

/-- The nodes that were followed are those that are found. -/
theorem mem_found_iff_followed (hc : c.Holds g) {new : List Key}
    (h : Followed c (scopesOf calls) (calls.flatMap (callReads c)) [.dynamic, .static] new)
    {k : Key} : k ∈ found c calls ↔ k ∈ [.dynamic, .static] ++ new := by
  constructor
  · intro hk
    obtain rfl | rfl | ⟨j, hj, hpath⟩ := exists_path_of_mem_explore hk
    · simp
    · simp
    · obtain ⟨a, ha, rfl⟩ := List.mem_map.mp hj
      exact h.mem_of_path (fun k hk => reads_root hk) (h.asked a ha).2 hpath
  · intro hk
    rcases List.mem_append.mp hk with hk | hk
    · simp only [List.mem_cons, List.not_mem_nil, or_false] at hk
      rcases hk with rfl | rfl
      · exact root_mem_explore.1
      · exact root_mem_explore.2
    · obtain ⟨a, ha, hpath⟩ := h.reached k hk
      exact mem_found_of_path hc ((found_closed hc).1 a ha) hpath

/-- Following comes to an end exactly if no answer has a fault. -/
theorem follow_eq_ok_iff (hc : c.Holds g) (calls : List (Call Interpolation)) :
    (∃ visited, follow c (scopesOf calls) (keyCount c (scopesOf calls))
      (calls.flatMap (callReads c)) [.dynamic, .static] =
      .ok visited) ↔ ∀ a ∈ allAnswers c calls, a.fault = none := by
  obtain ⟨new, hok, h⟩ | ⟨f, herr, b, hb, hmem⟩ := follow_calls hc calls
  · refine ⟨fun _ a ha => ?_, fun _ => ⟨_, hok⟩⟩
    rcases mem_allAnswers.mp ha with ha | ⟨k, hk, ha⟩
    · exact (h.asked a ha).1
    · rcases List.mem_append.mp ((mem_found_iff_followed hc h).mp hk) with hk | hk
      · rw [reads_root hk] at ha
        cases ha
      · exact (h.closed k hk a ha).1
  · constructor
    · rintro ⟨visited, hok⟩
      rw [herr] at hok
      cases hok
    · intro hall
      have hasked : b ∈ allAnswers c calls := by
        rcases hmem with hmem | ⟨a, ha, k, hpath, hmem⟩
        · exact mem_allAnswers.mpr (.inl hmem)
        · exact mem_allAnswers.mpr
            (.inr ⟨k, mem_found_of_path hc ((found_closed hc).1 a ha) hpath, hmem⟩)
      rw [hall b hasked] at hb
      cases hb

end Following

def graphOf (c : Context) (calls : List (Call Interpolation)) : Graph Key :=
  (explore c (scopesOf calls) ((calls.flatMap (callReads c)).map (·.key))).map
    fun (k, answers) => (k, (answers.map (·.key)).eraseDups)

theorem keys_graphOf : Table.keys (graphOf c calls) = found c calls := by
  simp [graphOf, found, Table.keys, Function.comp_def]

section Labels

variable (hc : c.Holds g) (hn : ((scopesOf calls).map (·.callSite)).Nodup)
  (hf : ∀ a ∈ allAnswers c calls, a.fault = none)
include hc hn hf

/-- No node is left with fewer dependencies than its definition reads. -/
theorem mem_deps_iff {k d : Key} {deps : List Key} (h : (k, deps) ∈ graphOf c calls) :
    d ∈ deps ↔ Reads g (scopesOf calls) k d := by
  obtain ⟨⟨j, answers⟩, hj, heq⟩ := List.mem_map.mp h
  obtain ⟨rfl, rfl⟩ := Prod.mk.inj heq
  obtain ⟨hfound, rfl⟩ := mem_explore.mp hj
  rw [reads_iff_of_mem_found hc hn hfound, List.mem_eraseDups, List.mem_map]
  refine exists_congr fun a => and_congr_right fun ha => ?_
  simp [hf a (mem_allAnswers.mpr (.inr ⟨j, hfound, ha⟩))]

theorem edge_iff {k d : Key} (hk : k ∈ found c calls) :
    (graphOf c calls).Edge k d ↔ Reads g (scopesOf calls) k d := by
  constructor
  · rintro ⟨deps, h, hd⟩
    exact (mem_deps_iff hc hn hf h).mp hd
  · intro hd
    obtain ⟨deps, h⟩ := Table.mem_keys.mp (keys_graphOf ▸ hk)
    exact ⟨deps, h, (mem_deps_iff hc hn hf h).mpr hd⟩

/-- Of the nodes found, those from which the dynamic root can be reached are the dynamic ones. -/
theorem mem_reaching_iff_dynamic {k : Key} (hk : k ∈ found c calls) :
    k ∈ (graphOf c calls).reaching .dynamic ↔ Dynamic g (scopesOf calls) k := by
  rw [Graph.mem_reaching]
  constructor
  · intro h
    clear hk
    induction h using Relation.ReflTransGen.head_induction_on with
    | refl => exact .root
    | head hedge _ ih =>
      obtain ⟨deps, h, hd⟩ := hedge
      exact .reads ((mem_deps_iff hc hn hf h).mp hd) ih
  · intro h
    induction h with
    | root => exact .refl
    | reads hr _ ih =>
      obtain ⟨a, ha, -, rfl⟩ := (reads_iff_of_mem_found hc hn hk).mp hr
      exact .head ((edge_iff hc hn hf hk).mpr hr) (ih ((found_closed hc).2 _ hk a ha))

/-- An interpolation that no earlier pass has settled is dynamic if one of its questions leads to a
dynamic node. -/
theorem labelOf_eq_dynamic_iff {call : Call Interpolation} (hcall : call ∈ calls)
    {b : Block Interpolation} (hb : b ∈ call.blocks) {i : Interpolation} (hi : i ∈ b.interpolations)
    (hw : i.wrapped = false) (hp : i.placeholder = none) :
    labelOf c ((graphOf c calls).reaching .dynamic) (.ofCall call) i = .dynamic ↔
      ∃ r ∈ i.node.reads [], ∃ k, Means g (.inStyle (.ofCall call) r) k ∧
      Dynamic g (scopesOf calls) k := by
  have hreads : interpolationReads c (.ofCall call) i =
      (i.node.reads []).map (c.localKey (.ofCall call)) := by
    simp [interpolationReads, hw, hp]
  have hmem : ∀ r ∈ i.node.reads [], c.localKey (.ofCall call) r ∈ calls.flatMap (callReads c) := by
    intro r hr
    simp only [callReads, List.mem_flatMap]
    exact ⟨call, hcall, i, ⟨b, hb, hi⟩, hreads ▸ List.mem_map.mpr ⟨r, hr, rfl⟩⟩
  have hany : labelOf c ((graphOf c calls).reaching .dynamic) (.ofCall call) i = .dynamic ↔
      ∃ r ∈ i.node.reads [], (c.localKey (.ofCall call) r).key ∈
        (graphOf c calls).reaching .dynamic := by
    simp [labelOf, hw, hp, hreads]
  rw [hany]
  refine exists_congr fun r => and_congr_right fun hr => ?_
  have hfault := hf _ (mem_allAnswers.mpr (.inl (hmem r hr)))
  rw [mem_reaching_iff_dynamic hc hn hf ((found_closed hc).1 _ (hmem r hr))]
  constructor
  · exact fun h => ⟨_, (Context.tells_localKey hc _ r _).mpr ⟨hfault, rfl⟩, h⟩
  · rintro ⟨k, hk, h⟩
    exact ((Context.tells_localKey hc _ r k).mp hk).2 ▸ h

end Labels

/-- Two calls of the same function whose interpolations come in different orders. -/
structure SameParts (a b : Call Interpolation) : Prop where
  callSite : a.callSite = b.callSite
  parameters : a.parameters = b.parameters
  function : a.function = b.function
  interpolations : (a.blocks.flatMap (·.interpolations)).Perm (b.blocks.flatMap (·.interpolations))

def Reordered (calls calls' : List (Call Interpolation)) : Prop :=
  ∃ shuffle, (∀ call ∈ calls, SameParts call (shuffle call)) ∧ calls'.Perm (calls.map shuffle)

theorem SameParts.scope {a b : Call Interpolation} (h : SameParts a b) :
    StyleScope.ofCall a = .ofCall b := by
  simp only [StyleScope.ofCall, h.callSite, h.parameters, h.function]

section Order

variable {calls' : List (Call Interpolation)} (h : Reordered calls calls')
include h

theorem Reordered.scopes_perm : (scopesOf calls').Perm (scopesOf calls) := by
  obtain ⟨shuffle, hsame, hperm⟩ := h
  have hmap : (calls.map shuffle).map StyleScope.ofCall = scopesOf calls := by
    rw [List.map_map]
    exact List.map_congr_left fun call hcall => (hsame call hcall).scope.symm
  exact hmap ▸ hperm.map StyleScope.ofCall

theorem Reordered.asked_iff (q : Question) : Asked calls' q ↔ Asked calls q := by
  obtain ⟨shuffle, hsame, hperm⟩ := h
  constructor
  · rintro ⟨call', hcall', i, hi, hq⟩
    obtain ⟨call, hcall, rfl⟩ := List.mem_map.mp (hperm.mem_iff.mp hcall')
    have hp := hsame call hcall
    exact ⟨call, hcall, i, hp.interpolations.mem_iff.mpr hi, hp.scope ▸ hq⟩
  · rintro ⟨call, hcall, i, hi, hq⟩
    have hp := hsame call hcall
    refine ⟨shuffle call, hperm.mem_iff.mpr (List.mem_map.mpr ⟨call, hcall, rfl⟩), i, ?_,
      hp.scope ▸ hq⟩
    exact hp.interpolations.mem_iff.mp hi

theorem Reordered.asks_eq (g : Ground) : Asks g (scopesOf calls') = Asks g (scopesOf calls) := by
  refine funext fun k => funext fun q => propext ⟨fun hq => ?_, fun hq => ?_⟩
  · cases hq with
    | atTop hm hq => exact .atTop hm hq
    | inStyle hs hq => exact .inStyle (h.scopes_perm.mem_iff.mp hs) hq
  · cases hq with
    | atTop hm hq => exact .atTop hm hq
    | inStyle hs hq => exact .inStyle (h.scopes_perm.mem_iff.mpr hs) hq

theorem Reordered.reads_eq (g : Ground) : Reads g (scopesOf calls') = Reads g (scopesOf calls) := by
  funext k d
  simp only [Reads, h.asks_eq]

theorem Reordered.dynamic_eq (g : Ground) :
    Dynamic g (scopesOf calls') = Dynamic g (scopesOf calls) := by
  funext k
  rw [eq_iff_iff, dynamic_iff_reaches, dynamic_iff_reaches, h.reads_eq]

theorem Reordered.answerable_iff : Answerable g calls' ↔ Answerable g calls := by
  simp only [Answerable, Reachable, h.asked_iff, h.asks_eq, h.reads_eq]

end Order

/-- The modules that classifying calls looks into, and whether they could be read. -/
def modulesOf (c : Context) (calls : List (Call Interpolation)) : List (Path × Bool) :=
  (c.path :: (allAnswers c calls).flatMap (·.consulted)).eraseDups.map fun p =>
    (p, (c.program.module? p).isSome)

/-- What classifying calls gives if no fault is met. -/
def classificationOf (c : Context) (calls : List (Call Interpolation)) : Classification :=
  ⟨calls.map (labelCall c ((graphOf c calls).reaching .dynamic)), graphOf c calls,
    (graphOf c calls).reaching .dynamic, modulesOf c calls⟩

/-- Classifying comes to the fault that following the reads of all interpolations comes to, or to
the labels. -/
theorem classify_eq_map_follow (files : FileTree) (settings : Settings)
    (allows : List String → Bool) (path : Path) (root : Node) (calls : List (Call Interpolation))
    {c : Context} (hc : c = .ofTree files settings allows path root) :
    classify files settings allows path root calls =
      (follow c (scopesOf calls) (keyCount c (scopesOf calls)) (calls.flatMap (callReads c))
        [.dynamic, .static]).map
        fun _ => classificationOf c calls := by
  subst hc
  unfold classify scopesOf
  dsimp only
  split
  next f hf =>
    rw [hf]
    rfl
  next visited hf =>
    rw [hf]
    rfl

/-- The outcome of classifying calls, with its parts by name. -/
theorem classify_eq (files : FileTree) (settings : Settings) (allows : List String → Bool)
    (path : Path) (root : Node) (calls : List (Call Interpolation)) {c : Context}
    (hc : c = .ofTree files settings allows path root) :
    (∀ a ∈ allAnswers c calls, a.fault = none) ∧
        (∃ modules, classify files settings allows path root calls =
          .ok ⟨calls.map (labelCall c ((graphOf c calls).reaching .dynamic)), graphOf c calls,
            (graphOf c calls).reaching .dynamic, modules⟩) ∨
      (¬∀ a ∈ allAnswers c calls, a.fault = none) ∧
      ∃ f, classify files settings allows path root calls = .error f := by
  have hholds : c.Holds (.ofTree files settings allows path root) :=
    hc ▸ Context.holds_ofTree files settings allows path root
  rw [← follow_eq_ok_iff hholds calls,
    classify_eq_map_follow files settings allows path root calls hc]
  cases follow c (scopesOf calls) (keyCount c (scopesOf calls)) (calls.flatMap (callReads c))
    [.dynamic, .static] with
  | ok visited => exact .inl ⟨⟨visited, rfl⟩, _, rfl⟩
  | error f =>
    refine .inr ⟨?_, f, rfl⟩
    rintro ⟨visited, hok⟩
    cases hok

open Classical in
noncomputable def Ground.label (g : Ground) (scopes : List StyleScope) (s : StyleScope)
    (i : Interpolation) : Label :=
  if i.wrapped then .static
  else if i.placeholder.isSome then .dynamic
  else if ∃ r ∈ i.node.reads [], ∃ k, Means g (.inStyle s r) k ∧ Dynamic g scopes k then .dynamic
  else .static

theorem callMap_congr {ι κ : Type} {f f' : ι → κ} {call : Call ι}
    (h : ∀ b ∈ call.blocks, ∀ i ∈ b.interpolations, f i = f' i) : call.map f = call.map f' := by
  have hblocks : call.blocks.map (·.map f) = call.blocks.map (·.map f') := by
    refine List.map_congr_left fun b hb => ?_
    rw [Block.map, Block.map, List.map_congr_left (h b hb)]
  rw [Call.map, Call.map, hblocks]

/-- Calls get the labels of the rules. -/
theorem map_labelCall (hc : c.Holds g) (hn : ((scopesOf calls).map (·.callSite)).Nodup)
    (hf : ∀ a ∈ allAnswers c calls, a.fault = none) :
    calls.map (labelCall c ((graphOf c calls).reaching .dynamic)) =
      calls.map fun call => call.map fun i =>
        { i with label := g.label (scopesOf calls) (.ofCall call) i } := by
  refine List.map_congr_left fun call hcall => ?_
  have hlabel : ∀ b ∈ call.blocks, ∀ i ∈ b.interpolations,
      labelOf c ((graphOf c calls).reaching .dynamic) (.ofCall call) i =
        g.label (scopesOf calls) (.ofCall call) i := by
    intro b hb i hi
    cases hw : i.wrapped with
    | true => simp [labelOf, Ground.label, hw]
    | false =>
      cases hp : i.placeholder with
      | some p => simp [labelOf, Ground.label, hw, hp]
      | none =>
        have hiff := labelOf_eq_dynamic_iff hc hn hf hcall hb hi hw hp
        unfold Ground.label
        simp only [hw, hp, Bool.false_eq_true, if_false, Option.isSome_none]
        split_ifs with hd
        · exact hiff.mpr hd
        · have hne := mt hiff.mp hd
          cases hl : labelOf c ((graphOf c calls).reaching .dynamic) (.ofCall call) i with
          | static => rfl
          | dynamic => exact absurd hl hne
  exact callMap_congr fun b hb i hi => by rw [hlabel b hb i hi]

/-- Classifying succeeds exactly if every question that comes up leads somewhere. The graph then
holds the two roots and what the interpolations can reach, each node with all that its definition
reads, and an interpolation that no earlier pass has settled is dynamic exactly if it reads a node
of the least set that holds the dynamic root and each node that reads one of the set. Labels do not
depend on the order of calls, blocks and interpolations. -/
theorem classify_least_fixed_point (files : FileTree) (settings : Settings)
    (allows : List String → Bool) (path : Path) (root : Node) (calls : List (Call Interpolation))
    (hsites : (calls.map (·.callSite)).Nodup) :
    let g := Ground.ofTree files settings allows path root
    ((∃ r, classify files settings allows path root calls = .ok r) ↔ Answerable g calls) ∧
      ∀ r, classify files settings allows path root calls = .ok r →
        (Table.keys r.graph).Nodup ∧
        (∀ k, k ∈ Table.keys r.graph ↔ k = .dynamic ∨ k = .static ∨ Reachable g calls k) ∧
        (∀ k deps, (k, deps) ∈ r.graph → ∀ d, d ∈ deps ↔ Reads g (scopesOf calls) k d) ∧
        ∃ label : StyleScope → Interpolation → Label,
          (∀ call ∈ calls, ∀ b ∈ call.blocks, ∀ i ∈ b.interpolations, i.wrapped = false →
            i.placeholder = none →
            (label (.ofCall call) i = .dynamic ↔
              ∃ ref ∈ i.node.reads [], ∃ k, Means g (.inStyle (.ofCall call) ref) k ∧
              Dynamic g (scopesOf calls) k)) ∧
          ∀ calls', Reordered calls calls' →
          ∃ r', classify files settings allows path root calls' = .ok r' ∧
            r'.calls = calls'.map fun call => call.map fun i =>
              { i with label := label (.ofCall call) i } := by
  intro g
  obtain ⟨c, hcdef⟩ : ∃ c, c = Context.ofTree files settings allows path root := ⟨_, rfl⟩
  have hc : c.Holds g := hcdef ▸ Context.holds_ofTree files settings allows path root
  have hn : ((scopesOf calls).map (·.callSite)).Nodup := by
    rw [scopesOf, List.map_map]
    exact hsites
  have hanswer := faultless_iff_answerable hc hn
  refine ⟨?_, fun r hr => ?_⟩
  · rw [← hanswer]
    obtain ⟨hf, _, hok⟩ | ⟨hf, f, herr⟩ := classify_eq files settings allows path root calls hcdef
    · exact ⟨fun _ => hf, fun _ => ⟨_, hok⟩⟩
    · refine ⟨fun ⟨r, hr⟩ => ?_, fun h => absurd h hf⟩
      rw [herr] at hr
      simp at hr
  · obtain ⟨hf, _, hok⟩ | ⟨-, f, herr⟩ := classify_eq files settings allows path root calls hcdef
    swap
    · rw [herr] at hr
      simp at hr
    obtain rfl := Except.ok.inj (hok.symm.trans hr)
    refine ⟨?_, fun k => ?_, fun k deps h d => mem_deps_iff hc hn hf h,
      g.label (scopesOf calls), ?_, ?_⟩
    · rw [keys_graphOf]
      exact nodup_explore
    · rw [keys_graphOf]
      refine ⟨reachable_of_mem_found hc hn (hanswer.mp hf), ?_⟩
      rintro (rfl | rfl | hk)
      · exact root_mem_explore.1
      · exact root_mem_explore.2
      · exact mem_found_of_reachable hc hn hk
    · intro call _ b _ i _ hw hp
      simp [Ground.label, hw, hp]
    · intro calls' hre
      have hn' : ((scopesOf calls').map (·.callSite)).Nodup :=
        (hre.scopes_perm.map _).nodup_iff.mpr hn
      have hf' : ∀ a ∈ allAnswers c calls', a.fault = none :=
        (faultless_iff_answerable hc hn').mpr (hre.answerable_iff.mpr (hanswer.mp hf))
      obtain ⟨-, _, hok'⟩ | ⟨hnot, -⟩ := classify_eq files settings allows path root calls' hcdef
      swap
      · exact absurd hf' hnot
      have hlabel : g.label (scopesOf calls') = g.label (scopesOf calls) := by
        funext s i
        unfold Ground.label
        rw [hre.dynamic_eq]
      exact ⟨_, hok', hlabel ▸ map_labelCall hc hn' hf'⟩

def selfImport : FileTree :=
  ⟨[(["b.js"], .file (encode "import\x7bx as y\x7dfrom'./b';export let x=y"))], [], []⟩

/-- A style definition that reads the module above and a parameter. -/
def styleSource : String :=
  "import\x7bx\x7dfrom'./b';f((\x7bcss,p\x7d)=>(\x7br:css\x60$\x7bx\x7d$\x7bp\x7d\x60\x7d))"

theorem classify_least_fixed_point_cycle :
    let settings : Settings := { Settings.ofTheme "t" with factory := "f" }
    let root := parse .script styleSource.toList
    let path : Path := ⟨true, ["a.js"]⟩
    let calls := (scan settings (encode styleSource) root "a.js").calls
    let g := Ground.ofTree selfImport settings (fun _ => true) path root
    (calls.map (·.callSite)).Nodup ∧ Answerable g calls ∧
      ∃ r, classify selfImport settings (fun _ => true) path root calls = .ok r ∧
        r.calls.map (·.blocks.map (·.interpolations.map (·.label))) = [[[.static, .dynamic]]] ∧
        ∀ k, k ∈ Table.keys r.graph ↔ k = .dynamic ∨ k = .static ∨ Reachable g calls k := by
  intro settings root path calls g
  have hrun : (calls.map (·.callSite)).Nodup ∧
      (classify selfImport settings (fun _ => true) path root calls).toOption.map
        (·.calls.map (·.blocks.map (·.interpolations.map (·.label)))) =
          some [[[.static, .dynamic]]] := by
    decide +kernel
  obtain ⟨hanswer, hgraph⟩ :=
    classify_least_fixed_point selfImport settings (fun _ => true) path root calls hrun.1
  cases hr : classify selfImport settings (fun _ => true) path root calls with
  | error f =>
    rw [hr] at hrun
    cases hrun.2
  | ok r =>
    rw [hr] at hrun
    exact ⟨hrun.1, hanswer.mp ⟨r, hr⟩, r, rfl, Option.some.inj hrun.2, (hgraph r hr).2.1⟩

end ThemedCss.Dependency
