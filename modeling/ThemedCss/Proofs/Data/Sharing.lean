import ThemedCss.Proofs.Data.Whole

/-! Graphs whose parts may be shared. What is set along some keys is found there and changes nothing
beside them, if no mapping on the way stands in two places. -/
namespace ThemedCss.Data.Graph

def OneRoute (cells : Array Cell) (part last : Part) : Prop :=
  ∀ route route', Route cells part route last → Route cells part route' last → route = route'

section OneRoute

variable {cells : Array Cell} {c : Cell} {next other last : Part} {p i j : Nat}

theorem OneRoute.into (h : OneRoute cells (.cell p) last) (hcell : cells[p]? = some c)
    (hnext : c.parts[i]? = some next) : OneRoute cells next last := by
  intro route route' hroute hroute'
  exact (List.cons.inj (h _ _ (.into hcell hnext hroute) (.into hcell hnext hroute'))).2

/-- What leads further stands around the last part. -/
theorem OneRoute.ne_of_leads (h : OneRoute cells (.cell p) last) (hcell : cells[p]? = some c)
    (hnext : c.parts[i]? = some next) (hleads : Leads cells next last) : last ≠ .cell p := by
  rintro rfl
  obtain ⟨route, hroute⟩ := hleads
  cases h _ _ (.here _) (.into hcell hnext hroute)

theorem OneRoute.not_leads_beside (h : OneRoute cells (.cell p) last) (hcell : cells[p]? = some c)
    (hnext : c.parts[i]? = some next) (hleads : Leads cells next last)
    (hother : c.parts[j]? = some other) (hne : i ≠ j) : ¬Leads cells other last := by
  rintro ⟨route', hroute'⟩
  obtain ⟨route, hroute⟩ := hleads
  exact hne (List.cons.inj (h _ _ (.into hcell hnext hroute) (.into hcell hother hroute'))).1

end OneRoute

section Find

variable {g : Graph} {part last : Part} {k : String} {keys : List String} {es : List (Part × Part)}
  {next : Part} {p : Nat}

theorem get?_cons_of_find? (hcell : g.cells[p]? = some (.map es))
    (hfind : find? g.cells (.plain (.text k)) es = some next) :
    g.get? (.cell p) ((k :: keys).map .text) = g.get? next (keys.map .text) := by
  rw [get?_cons, entries?_of_cell hcell, Option.bind_some, hfind]

theorem get?_cons_of_find?_none (hcell : g.cells[p]? = some (.map es))
    (hfind : find? g.cells (.plain (.text k)) es = none) :
    g.get? (.cell p) ((k :: keys).map .text) = .ok none := by
  rw [get?_cons, entries?_of_cell hcell, Option.bind_some, hfind]

/-- A chain of keys to something starts at a mapping that has the first of them. -/
theorem exists_of_get?_cons (h : g.get? part ((k :: keys).map .text) = .ok (some last)) :
    ∃ p es next, part = .cell p ∧ g.cells[p]? = some (.map es) ∧
      find? g.cells (.plain (.text k)) es = some next ∧
      g.get? next (keys.map .text) = .ok (some last) := by
  rw [get?_cons] at h
  cases hes : entries? g.cells part with
  | none => simp [hes] at h
  | some es =>
    obtain ⟨p, rfl, hcell⟩ := exists_cell_of_entries? hes
    cases hfind : find? g.cells (.plain (.text k)) es with
    | none => simp [hes, hfind] at h
    | some next =>
      rw [hes, Option.bind_some, hfind] at h
      exact ⟨p, es, next, rfl, hcell, hfind, h⟩

/-- What stands behind a key of a mapping is one of its parts. -/
theorem exists_parts_of_find? (hfind : find? g.cells (.plain (.text k)) es = some next) :
    ∃ i : Nat, (Cell.map es).parts[es.length + i]? = some next ∧
      ∃ key, (es[i]?).map (·.1) = some key ∧ lone? g.cells key = some (.text k) := by
  obtain ⟨i, e, he, rfl, hkey⟩ := exists_of_find? hfind
  exact ⟨i, Cell.parts_map_value he, e.1, by rw [he]; rfl, hkey⟩

/-- Each key is a step of the way. -/
theorem exists_route_of_get? (h : g.get? part (keys.map .text) = .ok (some last)) :
    ∃ route, Route g.cells part route last ∧ route.length = keys.length := by
  induction keys generalizing part with
  | nil =>
    cases h
    exact ⟨[], .here _, rfl⟩
  | cons k keys ih =>
    obtain ⟨p, es, next, rfl, hcell, hfind, hrest⟩ := exists_of_get?_cons h
    obtain ⟨i, hi, -⟩ := exists_parts_of_find? hfind
    obtain ⟨route, hroute, hlength⟩ := ih hrest
    exact ⟨_, .into hcell hi hroute, by rw [List.length_cons, hlength, List.length_cons]⟩

private theorem leads_of_get? (h : g.get? part (keys.map .text) = .ok (some last)) :
    Leads g.cells part last := by
  obtain ⟨route, hroute, -⟩ := exists_route_of_get? h
  exact ⟨route, hroute⟩

theorem get?_append {more : List String} (h : g.get? part (keys.map .text) = .ok (some last)) :
    g.get? part ((keys ++ more).map .text) = g.get? last (more.map .text) := by
  induction keys generalizing part with
  | nil =>
    cases h
    rfl
  | cons k keys ih =>
    obtain ⟨p, es, next, rfl, hcell, hfind, hrest⟩ := exists_of_get?_cons h
    rw [List.cons_append, get?_cons_of_find? hcell hfind]
    exact ih hrest

/-- What stands behind two keys of a mapping are two parts of it. -/
theorem not_leads_of_find? {x : String} {other : Part} (h : OneRoute g.cells (.cell p) last)
    (hcell : g.cells[p]? = some (.map es)) (hnext : find? g.cells (.plain (.text k)) es = some next)
    (hleads : Leads g.cells next last) (hother : find? g.cells (.plain (.text x)) es = some other)
    (hne : x ≠ k) : ¬Leads g.cells other last := by
  obtain ⟨i, hi, key, hkey, hk⟩ := exists_parts_of_find? hnext
  obtain ⟨j, hj, key', hkey', hx⟩ := exists_parts_of_find? hother
  apply h.not_leads_beside hcell hi hleads hj
  intro heq
  obtain rfl : i = j := Nat.add_left_cancel heq
  obtain rfl : key = key' := Option.some.inj (hkey.symm.trans hkey')
  exact hne (Value.text.inj (Option.some.inj (hx.symm.trans hk)))

end Find

/-- A mapping in which the part behind a key was replaced. All other cells stay. -/
structure Written (cells cells' : Array Cell) (p : Nat) (k : String) (es : List (Part × Part))
    (inner : Part) : Prop where
  size : cells.size ≤ cells'.size
  before : cells[p]? = some (.map es)
  after : cells'[p]? = some (.map (insert cells (.plain (.text k)) inner es))
  frame : ∀ q < cells.size, q ≠ p → cells'[q]? = cells[q]?

namespace Written

variable {cells cells' : Array Cell} {p : Nat} {k x : String} {es fs : List (Part × Part)}
  {inner part : Part}

private theorem lone?_eq (h : Written cells cells' p k es inner) (hpart : part.Within cells.size) :
    lone? cells' part = lone? cells part := by
  cases part with
  | plain v => rfl
  | cell q =>
    by_cases hq : q = p
    · subst hq
      simp only [lone?, h.before, h.after]
    · simp only [lone?, h.frame q hpart hq]

/-- The keys of a mapping stay what they are. -/
theorem lone?_keys (h : Written cells cells' p k es inner) (hclosed : Closed cells) {q : Nat}
    (hcell : cells[q]? = some (.map fs)) : ∀ e ∈ fs, lone? cells' e.1 = lone? cells e.1 :=
  fun e he => h.lone?_eq (forall_mem_parts_map.mp (hclosed q _ hcell) e he).1

theorem cell_of_ne (h : Written cells cells' p k es inner) {q : Nat} {c : Cell}
    (hcell : cells[q]? = some c) (hne : q ≠ p) : cells'[q]? = some c := by
  rw [h.frame q (Array.getElem?_eq_some_iff.mp hcell).1 hne, hcell]

theorem sameFrom (h : Written cells cells' p k es inner) (hclosed : Closed cells)
    (hpart : part.Within cells.size) (hnot : ¬Leads cells part (.cell p)) :
    SameFrom cells cells' part := by
  intro q hleads
  apply h.frame q (hclosed.within_of_leads hpart hleads)
  rintro rfl
  exact hnot hleads

theorem find?_self (h : Written cells cells' p k es inner) (hclosed : Closed cells) :
    find? cells' (.plain (.text k)) (insert cells (.plain (.text k)) inner es) = some inner := by
  rw [← insert_congr (h.lone?_keys hclosed h.before)]
  exact find?_insert_self _ _ _ _

theorem find?_of_ne (h : Written cells cells' p k es inner) (hclosed : Closed cells) (hne : x ≠ k) :
    find? cells' (.plain (.text x)) (insert cells (.plain (.text k)) inner es) =
      find? cells (.plain (.text x)) es := by
  rw [← insert_congr (h.lone?_keys hclosed h.before), find?_insert_of_ne hne]
  exact find?_congr (h.lone?_keys hclosed h.before)

end Written

/-- Where a value is set along some keys: at the last mapping on the way. The keys that are left
behind the next one lead into new mappings. -/
structure Site (g : Graph) (part : Part) (keys : List String) where
  done : List String
  key : String
  left : List String
  place : Nat
  entries : List (Part × Part)
  split : keys = done ++ key :: left
  found : g.get? part (done.map .text) = .ok (some (.cell place))
  cell : g.cells[place]? = some (.map entries)
  last : left ≠ [] → ∀ next, find? g.cells (.plain (.text key)) entries = some next →
    entries? g.cells next = none

/-- Keys lead through mappings that hold nothing else, one in the other, to a part. -/
structure Nested (g : Graph) (inner : Part) (left : List String) (part : Part) : Prop where
  along : ∀ path, g.get? inner ((left ++ path).map .text) = g.get? part (path.map .text)
  apart : ∀ path, ¬path <+: left → ¬left <+: path → g.get? inner (path.map .text) = .ok none

theorem Nested.nil (g : Graph) (part : Part) : g.Nested part [] part :=
  ⟨fun _ => rfl, fun _ _ h => absurd List.nil_prefix h⟩

section Nested

variable {cells : Array Cell} {g : Graph} {p : Nat} {k : String} {left : List String}
  {inner part : Part}

/-- One more mapping around. -/
theorem Nested.cons (h : g.Nested inner left part) (hw : Written cells g.cells p k [] inner)
    (hclosed : Closed cells) : g.Nested (.cell p) (k :: left) part := by
  constructor
  · intro path
    rw [List.cons_append, get?_cons_of_find? hw.after (hw.find?_self hclosed)]
    exact h.along path
  · intro path hpath hleft
    cases path with
    | nil => exact absurd List.nil_prefix hpath
    | cons x path =>
      rw [List.cons_prefix_cons] at hpath hleft
      by_cases hx : x = k
      · subst hx
        rw [get?_cons_of_find? hw.after (hw.find?_self hclosed)]
        exact h.apart path (fun h => hpath ⟨rfl, h⟩) fun h => hleft ⟨rfl, h⟩
      · exact get?_cons_of_find?_none hw.after (hw.find?_of_ne hclosed hx)

end Nested

/-- What was handed over is this part of a graph. Data of a caller have cells of their own there. -/
def Placed (g : Graph) (part : Part) : Given → Prop
  | .new a => g.SpellsAt part a
  | .live x => part = x

theorem Placed.value {g : Graph} {part : Part} {v : Given} (h : g.Placed part v) :
    g.value part = v.value g := by
  cases v with
  | new a => exact SpellsAt.value h
  | live x =>
    obtain rfl : part = x := h
    rfl

section Set

variable {g : Graph} {p : Nat} {es : List (Part × Part)} {k : String}

theorem written_assign (hclosed : Closed g.cells) (hcell : g.cells[p]? = some (.map es))
    {cells' : Array Cell} (hsize : g.cells.size ≤ cells'.size)
    (hold : ∀ q < g.cells.size, cells'[q]? = g.cells[q]?) (inner : Part) :
    ∃ cells'', assign ⟨cells', g.root⟩ (.cell p) (.text k) inner = .ok ⟨cells'', g.root⟩ ∧
      Written g.cells cells'' p k es inner ∧ ∀ q, q ≠ p → cells''[q]? = cells'[q]? := by
  have hp : p < g.cells.size := (Array.getElem?_eq_some_iff.mp hcell).1
  have hcell' : cell? cells' (.cell p) = some (.map es) := (hold p hp).trans hcell
  have hkeys : ∀ e ∈ es, lone? cells' e.1 = lone? g.cells e.1 := by
    intro e he
    have hwithin := (forall_mem_parts_map.mp (hclosed p _ hcell) e he).1
    cases hkey : e.1 with
    | plain v => rfl
    | cell q =>
      rw [hkey] at hwithin
      simp only [lone?, hold q hwithin]
  have hother : ∀ q, q ≠ p →
      (cells'.setIfInBounds p (.map (insert g.cells (.plain (.text k)) inner es)))[q]? =
        cells'[q]? :=
    fun q hq => Array.getElem?_setIfInBounds_ne (Ne.symm hq)
  refine ⟨cells'.setIfInBounds p (.map (insert g.cells (.plain (.text k)) inner es)), ?_,
    ⟨?_, hcell, ?_, ?_⟩, hother⟩
  · simp only [assign, hcell', Value.isKey, if_true, insert_congr hkeys]
  · rw [Array.size_setIfInBounds]
    exact hsize
  · rw [Array.getElem?_setIfInBounds_self_of_lt (by omega)]
  · intro q hq hne
    rw [hother q hne, hold q hq]

/-- There is no way on from an empty mapping. -/
theorem eq_nil_of_get? {keys : List String} {last : Part} (hcell : g.cells[p]? = some (.map []))
    (h : g.get? (.cell p) (keys.map .text) = .ok (some last)) : keys = [] := by
  cases keys with
  | nil => rfl
  | cons x keys =>
    rw [get?_cons_of_find?_none hcell rfl] at h
    cases h

/-- What is handed over is put at one place, inside the mappings that are missing. -/
theorem exists_site (hclosed : Closed g.cells) (hcell : g.cells[p]? = some (.map es)) (v : Given)
    (rest : List String) :
    ∃ (site : Site g (.cell p) (k :: rest)) (inner part : Part) (cells' : Array Cell),
      g.set (.cell p) (.text k) v (rest.map .text) = (⟨cells', g.root⟩, none) ∧
      Written g.cells cells' site.place site.key site.entries inner ∧
      Nested ⟨cells', g.root⟩ inner site.left part ∧ Placed ⟨cells', g.root⟩ part v := by
  induction rest generalizing g p k es with
  | nil =>
    obtain ⟨hsize, hold⟩ := place_spec g.cells v
    obtain ⟨cells', hassign, hwritten, hother⟩ :=
      written_assign (k := k) hclosed hcell hsize hold (v.place g.cells).2
    refine ⟨⟨[], k, [], p, es, rfl, rfl, hcell, fun h => absurd rfl h⟩, _, _, cells', ?_, hwritten,
      .nil _ _, ?_⟩
    · simp only [List.map_nil, set, hassign]
    · cases v with
      | live x => rfl
      | new a =>
        have hp : p < g.cells.size := (Array.getElem?_eq_some_iff.mp hcell).1
        obtain ⟨t, hpart, hvalue, hgrown⟩ := add_spec g.cells a
        refine ⟨t, hpart.symm, ⟨fun e he => ?_, hgrown.held.nodup⟩, hvalue⟩
        have hnew := hgrown.new e he
        rw [hother e.1 (by omega)]
        exact hgrown.held.held e he
  | cons next rest ih =>
    have hcell' : cell? g.cells (.cell p) = some (.map es) := hcell
    have hmember := member?_of_cell (k := k) g hcell'
    cases hinner : (find? g.cells (.plain (.text k)) es).bind fun q =>
      (entries? g.cells q).map fun _ => q with
    | some inner =>
      rw [hinner] at hmember
      obtain ⟨part, hfind, hpart⟩ := Option.bind_eq_some_iff.mp hinner
      obtain ⟨fs, hfs, rfl⟩ := Option.map_eq_some_iff.mp hpart
      obtain ⟨q, rfl, hq⟩ := exists_cell_of_entries? hfs
      obtain ⟨site, inner, part, cells', hset, hstored⟩ := ih (k := next) hclosed hq
      refine ⟨⟨k :: site.done, site.key, site.left, site.place, site.entries, ?_, ?_, site.cell,
        site.last⟩, inner, part, cells', ?_, hstored⟩
      · rw [List.cons_append, ← site.split]
      · rw [get?_cons_of_find? hcell hfind, site.found]
      · simp only [List.map_cons, set, hmember]
        exact hset
    | none =>
      -- A new mapping takes the place of what stands in the way, and all the rest goes there.
      rw [hinner] at hmember
      have hp : p < g.cells.size := (Array.getElem?_eq_some_iff.mp hcell).1
      have hgrown := (Grown.nil g.cells).push (.map [])
      obtain ⟨cells₁, hassign, hwritten, hother⟩ :=
        written_assign (k := k) hclosed hcell hgrown.size hgrown.old
          (.cell g.cells.size)
      have hcell₁ : cells₁[g.cells.size]? = some (.map []) := by
        rw [hother _ (by omega)]
        exact Array.getElem?_push_size
      have hpushed : Closed (g.cells.push (.map [])) := hclosed.push (by simp [Cell.parts])
      have hclosed₁ : Closed cells₁ := hpushed.assign (by simp [Part.Within]) hassign
      obtain ⟨⟨done, key, left, place, entries, hsplit, hfound, _, _⟩, inner, part, cells', hset,
          hw, hnested, hplaced⟩ :=
        ih (g := ⟨cells₁, g.root⟩) (k := next) hclosed₁ hcell₁
      dsimp only at hw hnested
      obtain rfl := eq_nil_of_get? hcell₁ hfound
      obtain ⟨rfl, rfl⟩ := List.cons.inj hsplit
      obtain rfl : g.cells.size = place := Part.cell.inj (Option.some.inj (Except.ok.inj hfound))
      obtain rfl : [] = entries := Cell.map.inj (Option.some.inj (hcell₁.symm.trans hw.before))
      have hframe : ∀ q < g.cells.size, cells'[q]? = cells₁[q]? := fun q hq =>
        hw.frame q (Nat.lt_of_lt_of_le hq hwritten.size) (by omega)
      refine ⟨⟨[], k, next :: rest, p, es, rfl, rfl, hcell, ?_⟩, .cell g.cells.size, part, cells',
        ?_, ⟨Nat.le_trans hwritten.size hw.size, hcell, ?_, ?_⟩, hnested.cons hw hclosed₁, hplaced⟩
      · intro _ other hfind
        rw [hfind, Option.bind_some, Option.map_eq_none_iff] at hinner
        exact hinner
      · simp only [List.map_cons, set, hmember, push, hassign]
        exact hset
      · rw [hframe p hp]
        exact hwritten.after
      · intro q hq hne
        rw [hframe q hq]
        exact hwritten.frame q hq hne

end Set

section Laws

variable {g g' : Graph} {p : Nat} {k x : String} {es : List (Part × Part)} {inner part : Part}
  {done : List String}

/-- The way to a mapping stays the same when it changes, unless it passes the key that is
written. -/
theorem get?_append_of_written (hclosed : Closed g.cells)
    (hw : Written g.cells g'.cells p k es inner)
    (hfound : g.get? part (done.map .text) = .ok (some (.cell p)))
    (hstraight : ∀ before mid, done = before ++ k :: mid →
      g.get? part (before.map .text) ≠ .ok (some (.cell p)))
    (keys : List String) :
    g'.get? part ((done ++ keys).map .text) = g'.get? (.cell p) (keys.map .text) := by
  induction done generalizing part with
  | nil =>
    cases hfound
    rfl
  | cons x done ih =>
    obtain ⟨q, fs, next, rfl, hcell, hfind, hrest⟩ := exists_of_get?_cons hfound
    have hfrom : ∀ before mid, done = before ++ k :: mid →
        g.get? next (before.map .text) ≠ .ok (some (.cell p)) := by
      intro before mid hdone
      have hnot := hstraight (x :: before) mid (by rw [hdone, List.cons_append])
      rwa [get?_cons_of_find? hcell hfind] at hnot
    rw [List.cons_append]
    by_cases hq : q = p
    · subst hq
      have hne : x ≠ k := by
        rintro rfl
        exact hstraight [] done rfl rfl
      obtain rfl : fs = es := Cell.map.inj (Option.some.inj (hcell.symm.trans hw.before))
      rw [get?_cons_of_find? hw.after ((hw.find?_of_ne hclosed hne).trans hfind)]
      exact ih hrest hfrom
    · have hfind' : find? g'.cells (.plain (.text x)) fs = some next := by
        rw [find?_congr (hw.lone?_keys hclosed hcell), hfind]
      rw [get?_cons_of_find? (hw.cell_of_ne hcell hq) hfind']
      exact ih hrest hfrom

/-- What is behind a key and does not lead to the changed mapping is found as before. -/
theorem sameFound_beside (hclosed : Closed g.cells) (hw : Written g.cells g'.cells p k es inner)
    {q : Nat} {fs fs' : List (Part × Part)} (hcell : g.cells[q]? = some (.map fs))
    (hcell' : g'.cells[q]? = some (.map fs'))
    (hfind : find? g'.cells (.plain (.text x)) fs' = find? g.cells (.plain (.text x)) fs)
    (hnot : ∀ next, find? g.cells (.plain (.text x)) fs = some next → ¬Leads g.cells next (.cell p))
    (path : List String) : SameFound g g' (.cell q) (x :: path) := by
  cases hnext : find? g.cells (.plain (.text x)) fs with
  | none =>
    refine ⟨none, get?_cons_of_find?_none hcell hnext, ?_, rfl⟩
    exact get?_cons_of_find?_none hcell' (hfind.trans hnext)
  | some next =>
    obtain ⟨i, hi, -⟩ := exists_parts_of_find? hnext
    have hwithin := hclosed q _ hcell next (List.mem_of_getElem? hi)
    rw [SameFound, get?_cons_of_find? hcell hnext, get?_cons_of_find? hcell' (hfind.trans hnext)]
    exact sameFound_of_sameFrom hw.size (hw.sameFrom hclosed hwithin (hnot next hnext)) path

/-- Behind the keys that lead into new mappings nothing was found before. -/
theorem get?_eq_none_of_last (hcell : g.cells[p]? = some (.map es))
    (hlast : ∀ next, find? g.cells (.plain (.text k)) es = some next → entries? g.cells next = none)
    {path : List String} (hpath : path ≠ []) :
    g.get? (.cell p) ((k :: path).map .text) = .ok none := by
  cases hfind : find? g.cells (.plain (.text k)) es with
  | none => exact get?_cons_of_find?_none hcell hfind
  | some next =>
    cases path with
    | nil => exact absurd rfl hpath
    | cons y path =>
      rw [get?_cons_of_find? hcell hfind, get?_cons, hlast next hfind]
      rfl

/-- What is found along keys that part from those to the changed value is the same before and
after. -/
theorem sameFound_of_apart (hclosed : Closed g.cells) {left : List String} {last : Part}
    (hw : Written g.cells g'.cells p k es inner) (hnested : g'.Nested inner left last)
    (hlast : left ≠ [] → ∀ next, find? g.cells (.plain (.text k)) es = some next →
      entries? g.cells next = none)
    (hone : OneRoute g.cells part (.cell p))
    (hfound : g.get? part (done.map .text) = .ok (some (.cell p))) {path : List String}
    (hpath : ¬path <+: done ++ k :: left) (hkeys : ¬done ++ k :: left <+: path) :
    SameFound g g' part path := by
  induction done generalizing part path with
  | nil =>
    cases hfound
    cases path with
    | nil => exact absurd List.nil_prefix hpath
    | cons x path =>
      by_cases hx : x = k
      · -- There was no mapping to go on in, and the new ones hold nothing beside the keys left.
        subst hx
        rw [List.nil_append, List.cons_prefix_cons] at hpath hkeys
        have hapart : ¬path <+: left := fun h => hpath ⟨rfl, h⟩
        have hapart' : ¬left <+: path := fun h => hkeys ⟨rfl, h⟩
        have hleft : left ≠ [] := by
          rintro rfl
          exact hapart' List.nil_prefix
        have hne : path ≠ [] := by
          rintro rfl
          exact hapart List.nil_prefix
        refine ⟨none, get?_eq_none_of_last hw.before (hlast hleft) hne, ?_, rfl⟩
        rw [get?_cons_of_find? hw.after (hw.find?_self hclosed)]
        exact hnested.apart path hapart hapart'
      · apply sameFound_beside hclosed hw hw.before hw.after (hw.find?_of_ne hclosed hx)
        intro next hnext hleads
        obtain ⟨i, hi, -⟩ := exists_parts_of_find? hnext
        exact hone.ne_of_leads hw.before hi hleads rfl
  | cons y done ih =>
    obtain ⟨q, fs, next, rfl, hcell, hfind, hrest⟩ := exists_of_get?_cons hfound
    obtain ⟨i, hi, -⟩ := exists_parts_of_find? hfind
    have hleads := leads_of_get? hrest
    have hne : q ≠ p := fun heq => hone.ne_of_leads hcell hi hleads (congrArg Part.cell heq.symm)
    have hcell' := hw.cell_of_ne hcell hne
    have hfind' : ∀ x, find? g'.cells (.plain (.text x)) fs = find? g.cells (.plain (.text x)) fs :=
      fun x => find?_congr (hw.lone?_keys hclosed hcell)
    cases path with
    | nil => exact absurd List.nil_prefix hpath
    | cons x path =>
      by_cases hx : x = y
      · subst hx
        rw [List.cons_append, List.cons_prefix_cons] at hpath hkeys
        rw [SameFound, get?_cons_of_find? hcell hfind,
          get?_cons_of_find? hcell' ((hfind' x).trans hfind)]
        exact ih (hone.into hcell hi) hrest (fun h => hpath ⟨rfl, h⟩) fun h => hkeys ⟨rfl, h⟩
      · -- What stands behind another key would lead to the changed mapping on a second route.
        apply sameFound_beside hclosed hw hcell hcell' (hfind' x)
        intro other hother
        exact not_leads_of_find? hone hcell hfind hleads hother hx

end Laws

section Along

variable (g : Graph) (keys : List String)

/-- No mapping on the way along some keys stands in two places. -/
def UnsharedAlong : Prop :=
  ∀ done left part, keys = done ++ left → left ≠ [] →
    g.get? g.root (done.map .text) = .ok (some part) →
    (entries? g.cells part).isSome → OneRoute g.cells g.root part

/-- No mapping on the way along some keys is left twice by the same key. Only data that stand inside
themselves have another way. -/
def StraightAlong : Prop :=
  ∀ done k mid left place, keys = done ++ k :: (mid ++ k :: left) →
    g.get? g.root (done.map .text) = .ok (some (.cell place)) →
    g.get? g.root ((done ++ k :: mid).map .text) ≠ .ok (some (.cell place))

/-- A part leads to no mapping on the way along some keys. -/
def Beside (part : Part) : Prop :=
  ∀ done left place, keys = done ++ left → left ≠ [] →
    g.get? g.root (done.map .text) = .ok (some (.cell place)) → ¬Leads g.cells part (.cell place)

end Along

theorem UnsharedAlong.straightAlong {g : Graph} {keys : List String} (h : g.UnsharedAlong keys) :
    g.StraightAlong keys := by
  intro done k mid left place hkeys hget hagain
  have hinner : g.get? (.cell place) ((k :: mid).map .text) = .ok (some (.cell place)) := by
    rw [← get?_append hget, hagain]
  obtain ⟨_, es, _, hplace, hcell, -⟩ := exists_of_get?_cons hinner
  obtain rfl := Part.cell.inj hplace
  have hone : OneRoute g.cells g.root (.cell place) := by
    apply h done (k :: (mid ++ k :: left)) _ hkeys (List.cons_ne_nil _ _) hget
    rw [entries?_of_cell hcell]
    rfl
  obtain ⟨route, hroute, hlength⟩ := exists_route_of_get? hget
  obtain ⟨route', hroute', hlength'⟩ := exists_route_of_get? hagain
  rw [hone route route' hroute hroute', hlength', List.length_append, List.length_cons] at hlength
  omega

/-- To set something in a mapping puts it behind the keys. It changes nothing that is found along
other keys, if no mapping on the way stands in two places, and nothing inside a part that leads to
no such mapping. -/
theorem WholeMapping.exists_set {g : Graph} (h : g.WholeMapping) (k : String) (rest : List String)
    (v : Given) :
    ∃ g' part, g.set g.root (.text k) v (rest.map .text) = (g', none) ∧ g'.root = g.root ∧
      g'.Placed part v ∧
      (g.StraightAlong (k :: rest) →
        ∀ path, g'.get? g'.root ((k :: rest ++ path).map .text) = g'.get? part (path.map .text)) ∧
      (g.UnsharedAlong (k :: rest) →
        ∀ path, ¬path <+: k :: rest → ¬k :: rest <+: path → SameFound g g' g.root path) ∧
      ∀ x, x.Within g.cells.size → g.Beside (k :: rest) x → ∀ path, SameFound g g' x path := by
  obtain ⟨cells, root⟩ := g
  obtain ⟨es, hes⟩ := Option.isSome_iff_exists.mp h.mapping
  obtain ⟨p, rfl, hcell⟩ := exists_cell_of_entries? hes
  obtain ⟨⟨done, key, left, place, entries, hsplit, hfound, hplace, hlast⟩, inner, part, cells',
      hset, hw, hnested, hplaced⟩ := exists_site (k := k) h.closed hcell v rest
  refine ⟨⟨cells', .cell p⟩, part, hset, rfl, hplaced, ?_, ?_, ?_⟩
  · intro hstraight path
    have honce : ∀ before mid, done = before ++ key :: mid →
        get? ⟨cells, .cell p⟩ (.cell p) (before.map .text) ≠ .ok (some (.cell place)) := by
      rintro before mid rfl hbefore
      refine hstraight before key mid left place ?_ hbefore hfound
      rw [hsplit, List.append_assoc, List.cons_append]
    have hway : get? ⟨cells', .cell p⟩ (.cell p) ((done ++ key :: (left ++ path)).map .text) =
        get? ⟨cells', .cell p⟩ (.cell place) ((key :: (left ++ path)).map .text) :=
      get?_append_of_written h.closed hw hfound honce _
    rw [hsplit, List.append_assoc, List.cons_append, hway,
      get?_cons_of_find? hw.after (hw.find?_self h.closed)]
    exact hnested.along path
  · intro hunshared path hpath hkeys
    have hone : OneRoute cells (.cell p) (.cell place) := by
      apply hunshared done (key :: left) _ hsplit (List.cons_ne_nil _ _) hfound
      rw [entries?_of_cell hplace]
      rfl
    rw [hsplit] at hpath hkeys
    exact sameFound_of_apart h.closed hw hnested hlast hone hfound hpath hkeys
  · intro x hx hbeside path
    have hnot := hbeside done (key :: left) place hsplit (List.cons_ne_nil _ _) hfound
    exact sameFound_of_sameFrom hw.size (hw.sameFrom h.closed hx hnot) path

end ThemedCss.Data.Graph
