import Accelerator.Proofs.Reading

/-!
# Reading more than once

Once all names in a stream are known, a record changes nothing but the summary of its function (`Record.enter`): the
kind and the side are replaced, and a name replaces the bound function.  What a record changes does not depend on what
an earlier entry of the same record changed, whatever came between (`enter_enter_enter`), so entering all records of a
stream again changes nothing.  Records about different functions can be entered in any order (`enter_comm`).
-/

namespace Accelerator.Stream

variable {roster : Roster} {p q : Program} {s : Summaries} {m n : Node} {r x : Record}

/-! ### Entering a record under known names -/

/-- The summaries after a record whose name is known. -/
def Record.enter (q : Program) (r : Record) (n : Node) (s : Summaries) : Summaries :=
  s.update n fun e => ⟨r.kind, r.accelerator, (r.bound.bind (q.names[·]?)).or e.bound⟩

/-- The summaries after some records whose names are known. -/
def enterAll (q : Program) (es : List (Node × Record)) (s : Summaries) : Summaries :=
  es.foldl (fun s e => e.2.enter q e.1 s) s

private theorem enterAll_cons (e : Node × Record) (es : List (Node × Record)) (s : Summaries) :
    enterAll q (e :: es) s = enterAll q es (e.2.enter q e.1 s) := rfl

private theorem getElem?_enter : (r.enter q n s)[m]? =
    if m = n then some ⟨r.kind, r.accelerator, (r.bound.bind (q.names[·]?)).or (s.of n).bound⟩ else s[m]? := by
  rw [Record.enter, Summaries.update, Std.ExtTreeMap.getElem?_insert]
  simp [eq_comm (a := m)]

private theorem of_enter : (r.enter q n s).of m =
    if m = n then ⟨r.kind, r.accelerator, (r.bound.bind (q.names[·]?)).or (s.of n).bound⟩ else s.of m :=
  Summaries.of_update s m n _

private theorem or_or_self (a b : Option Node) : a.or (a.or b) = a.or b := by
  rw [← Option.or_assoc, Option.or_self]

/-- Entering a record again, after another one, is as good as entering it only then. -/
theorem enter_enter_enter : r.enter q n (x.enter q m (r.enter q n s)) = r.enter q n (x.enter q m s) := by
  apply Std.ExtTreeMap.ext_getElem?
  intro k
  have hbound : ∀ a b c : Option Node, a.or (b.or (a.or c)) = a.or (b.or c) := by
    intro a b c
    cases a <;> simp
  simp only [getElem?_enter, of_enter]
  by_cases hk : k = n
  · by_cases hm : n = m
    · simp [hk, hm, hbound]
    · simp [hk, hm, or_or_self]
  · by_cases hm : m = n
    · simp [hk, hm]
    · simp [hk, hm]

private theorem enter_enter : r.enter q n (r.enter q n s) = r.enter q n s := by
  apply Std.ExtTreeMap.ext_getElem?
  intro k
  simp only [getElem?_enter, of_enter]
  by_cases hk : k = n
  · simp [hk, or_or_self]
  · simp [hk]

theorem enter_comm (h : n ≠ m) : r.enter q n (x.enter q m s) = x.enter q m (r.enter q n s) := by
  apply Std.ExtTreeMap.ext_getElem?
  intro k
  simp only [getElem?_enter, of_enter, if_neg h, if_neg h.symm]
  by_cases hk : k = n
  · simp [hk, h]
  · simp [hk]

private theorem enterAll_enter {e : Node × Record} {es : List (Node × Record)} (he : e ∈ es) (s : Summaries) :
    enterAll q es (e.2.enter q e.1 s) = enterAll q es s := by
  induction es generalizing s with
  | nil => cases he
  | cons d es ih =>
    rw [enterAll_cons, enterAll_cons]
    rcases List.mem_cons.mp he with rfl | he
    · rw [enter_enter]
    · rw [← ih he (d.2.enter q d.1 _), enter_enter_enter, ih he]

private theorem enterAll_of_subset {ds es : List (Node × Record)} (h : ds ⊆ es) (s : Summaries) :
    enterAll q es (enterAll q ds s) = enterAll q es s := by
  induction ds generalizing s with
  | nil => rfl
  | cons d ds ih =>
    rw [List.cons_subset] at h
    rw [enterAll_cons, ih h.2, enterAll_enter h.1]

private theorem enterAll_comm {ds es : List (Node × Record)} (h : ∀ d ∈ ds, ∀ e ∈ es, d.1 ≠ e.1) (s : Summaries) :
    enterAll q ds (enterAll q es s) = enterAll q es (enterAll q ds s) := by
  have hone : ∀ d ∈ ds, ∀ s, d.2.enter q d.1 (enterAll q es s) = enterAll q es (d.2.enter q d.1 s) := by
    intro d hd s
    have hd' := h d hd
    clear h hd
    induction es generalizing s with
    | nil => rfl
    | cons e es ih =>
      rw [List.forall_mem_cons] at hd'
      rw [enterAll_cons, enterAll_cons, ih _ hd'.2, enter_comm hd'.1]
  clear h
  induction ds generalizing s with
  | nil => rfl
  | cons d ds ih =>
    rw [List.forall_mem_cons] at hone
    rw [enterAll_cons, enterAll_cons, hone.1, ih _ hone.2]

/-! ### Names that become known -/

/-- What is known under a name in the first program is known under it in the second. -/
def Knows (p q : Program) : Prop :=
  ∀ (title : String) (n : Node), p.names[title]? = some n → q.names[title]? = some n

private theorem knows_getOrDeclare (p : Program) (title : String) : Knows p (p.getOrDeclare title).2 := by
  intro t n hn
  unfold Program.getOrDeclare
  split
  · exact hn
  · rename_i hnone
    have hne : t ≠ (Program.declaration title).name := by
      rintro rfl
      rw [hnone] at hn
      cases hn
    rw [Program.names_addFunction, if_neg hne, hn]

private theorem names_getOrDeclare (p : Program) (title : String) :
    (p.getOrDeclare title).2.names[title]? = some (p.getOrDeclare title).1 := by
  unfold Program.getOrDeclare
  split
  · assumption
  · simp [Program.names_addFunction, Program.declaration]

private theorem knows_apply (r : Record) (n : Node) (state : Program × Summaries) :
    Knows state.1 (r.apply n state).1 := by
  rw [(r.applies_apply n state).program]
  cases r.bound with
  | none => exact fun _ _ h => h
  | some title => exact knows_getOrDeclare state.1 title

private theorem knows_applyAll (es : List (Node × Record)) (state : Program × Summaries) :
    Knows state.1 (applyAll es state).1 := by
  induction es generalizing state with
  | nil => exact fun _ _ h => h
  | cons e es ih => exact fun title n h => ih (e.2.apply e.1 state) title n (knows_apply e.2 e.1 state title n h)

/-- A record whose name is known leaves the program alone. -/
private theorem apply_of_known (h : ∀ title ∈ r.bound, title ∈ q.names) (n : Node) (s : Summaries) :
    r.apply n (q, s) = (q, r.enter q n s) := by
  unfold Record.apply Record.enter
  cases hb : r.bound with
  | none => rfl
  | some title =>
    obtain ⟨b, hname⟩ : ∃ b, q.names[title]? = some b := by
      have := h title hb
      exact ⟨q.names[title], Std.ExtTreeMap.getElem?_eq_some_getElem this⟩
    simp [Program.getOrDeclare, hname]

private theorem applyAll_of_known {es : List (Node × Record)} (h : ∀ e ∈ es, ∀ title ∈ e.2.bound, title ∈ q.names)
    (s : Summaries) : applyAll es (q, s) = (q, enterAll q es s) := by
  induction es generalizing s with
  | nil => rfl
  | cons e es ih =>
    rw [List.forall_mem_cons] at h
    rw [applyAll_cons, enterAll_cons, apply_of_known h.1, ih h.2]

/-- In a program that knows all names afterwards, a record does the same to the summaries. -/
private theorem snd_apply (state : Program × Summaries) (h : Knows (r.apply n state).1 q) :
    (r.apply n state).2 = r.enter q n state.2 ∧ ∀ title ∈ r.bound, title ∈ q.names := by
  obtain ⟨p, s⟩ := state
  have happly := (r.applies_apply n (p, s)).program
  unfold Record.apply Record.enter
  cases hb : r.bound with
  | none => exact ⟨rfl, by simp⟩
  | some title =>
    rw [happly, hb] at h
    have hname := h title _ (names_getOrDeclare p title)
    refine ⟨by simp [hname], ?_⟩
    rintro _ ⟨⟩
    exact Std.ExtTreeMap.mem_iff_isSome_getElem?.mpr (by rw [hname]; rfl)

private theorem snd_applyAll (es : List (Node × Record)) (state : Program × Summaries)
    (h : Knows (applyAll es state).1 q) :
    (applyAll es state).2 = enterAll q es state.2 ∧ ∀ e ∈ es, ∀ title ∈ e.2.bound, title ∈ q.names := by
  induction es generalizing state with
  | nil => exact ⟨rfl, by simp⟩
  | cons e es ih =>
    have hlast : Knows (applyAll es (e.2.apply e.1 state)).1 q := h
    have hfirst : Knows (e.2.apply e.1 state).1 q := fun title n hn =>
      hlast title n (knows_applyAll es _ title n hn)
    obtain ⟨hsnd, hnames⟩ := snd_apply state hfirst
    obtain ⟨hsnd', hnames'⟩ := ih (e.2.apply e.1 state) hlast
    refine ⟨?_, List.forall_mem_cons.mpr ⟨hnames, hnames'⟩⟩
    rw [hsnd] at hsnd'
    exact hsnd'

private theorem applyAll_applyAll (es : List (Node × Record)) (state : Program × Summaries) :
    applyAll es (applyAll es state) = applyAll es state := by
  obtain ⟨hsnd, hnames⟩ := snd_applyAll es state fun _ _ h => h
  calc applyAll es (applyAll es state)
      = applyAll es ((applyAll es state).1, enterAll (applyAll es state).1 es state.2) := by rw [← hsnd]
    _ = ((applyAll es state).1, enterAll (applyAll es state).1 es (enterAll (applyAll es state).1 es state.2)) :=
      applyAll_of_known hnames _
    _ = applyAll es state := by rw [enterAll_of_subset (List.Subset.refl es), ← hsnd]

/-! ### Streams -/

private theorem Records.fits {bytes rest : List UInt8} {es : List (Node × Record)}
    (h : Records roster p bytes es rest) : ∀ e ∈ es, Fits roster p e := by
  induction h with
  | nil => simp
  | cons _ hf _ ih => exact List.forall_mem_cons.mpr ⟨hf, ih⟩

private theorem Holds.fits {bytes : List UInt8} {es : List (Node × Record)} (h : Holds roster p bytes es) :
    ∀ e ∈ es, Fits roster p e := by
  obtain ⟨_, _, _, _, _, hrecords⟩ := h
  exact hrecords.fits

/-- Different places on a roster are places of different functions. -/
private theorem Fits.node_ne {d e : Node × Record} (hd : Fits roster p d) (he : Fits roster p e)
    (h : d.2.place ≠ e.2.place) : d.1 ≠ e.1 := by
  intro heq
  have hnode : roster.nodes[d.2.place]? = roster.nodes[e.2.place]? := by
    rw [show roster.nodes[d.2.place]? = _ from hd.1, show roster.nodes[e.2.place]? = _ from he.1, heq]
  have hlt : d.2.place < roster.nodes.length := (List.getElem?_eq_some_iff.mp hd.1).1
  exact h ((List.getElem?_inj hlt roster.nodup).mp hnode)

/-- A stream that is accepted is accepted again and then changes nothing.  Two streams that are accepted, are about
different places and use only names that are known are accepted in either order, with the same outcome. -/
theorem read_merges (roster : Roster) (state : Program × Summaries) (bytes bytes' : List UInt8) :
    (∀ n, (read roster state bytes).2 = .ok n →
      read roster (read roster state bytes).1 bytes = ((read roster state bytes).1, .ok n)) ∧
    ∀ es es', Holds roster state.1 bytes es → Holds roster state.1 bytes' es' →
      (∀ e ∈ es, ∀ e' ∈ es', e.2.place ≠ e'.2.place) →
      (∀ e ∈ es ++ es', ∀ title ∈ e.2.bound, title ∈ state.1.names) →
      read roster (read roster state bytes).1 bytes' =
          ((read roster (read roster state bytes').1 bytes).1, .ok es'.length) ∧
        (read roster (read roster state bytes').1 bytes).2 = .ok es.length := by
  constructor
  · intro n hn
    obtain ⟨es, hs, rfl⟩ := exists_holds hn
    have hs' := holds_congr (definition_applyAll es state) hs
    rw [hs.read_eq, hs'.read_eq, applyAll_applyAll]
  · intro es es' hs hs' hplaces hnames
    obtain ⟨p, s⟩ := state
    have hnodes : ∀ e ∈ es, ∀ e' ∈ es', e.1 ≠ e'.1 := fun e he e' he' =>
      (hs.fits e he).node_ne (hs'.fits e' he') (hplaces e he e' he')
    have hes := applyAll_of_known (q := p) fun e he => hnames e (List.mem_append_left es' he)
    have hes' := applyAll_of_known (q := p) fun e he => hnames e (List.mem_append_right es he)
    have hthen : read roster (p, enterAll p es s) bytes' = (applyAll es' (p, enterAll p es s), .ok es'.length) :=
      Holds.read_eq hs'
    have hthen' : read roster (p, enterAll p es' s) bytes = (applyAll es (p, enterAll p es' s), .ok es.length) :=
      Holds.read_eq hs
    rw [hs.read_eq, hs'.read_eq, hes, hes', hthen, hthen', hes, hes', enterAll_comm hnodes]
    exact ⟨rfl, rfl⟩

/-- What is written for records about definitions on the roster holds them. -/
private theorem holds_encodeRecords {es : List (Node × Record)} (hes : ∀ e ∈ es, e.2.IsAbout roster e.1)
    (hdef : ∀ e ∈ es, (p.function e.1).flags.definition = true) (hcount : es.length < 2 ^ 64) :
    Holds roster p (encodeRecords (es.map (·.2))) es := by
  refine ⟨[], encodeNumber es.length, (es.map (·.2)).flatMap Record.encode ++ [0], ?_, isNumber_encodeNumber hcount, ?_⟩
  · rw [encodeRecords, List.length_map, List.append_assoc]
  · clear hcount
    induction es with
    | nil => exact .nil [0]
    | cons e es ih =>
      rw [List.forall_mem_cons] at hes hdef
      rw [List.map_cons, List.flatMap_cons, List.append_assoc]
      exact .cons (isRecord_encode hes.1) ⟨hes.1.node, hdef.1⟩ (ih hes.2 hdef.2)

/-- Two definitions. -/
def pairItems : List (Source.Item String) :=
  [.function ⟨"f", [], [], {}, some [⟨"entry", [⟨none, .other "ret", []⟩]⟩]⟩,
   .function ⟨"g", [], [], {}, some [⟨"entry", [⟨none, .other "ret", []⟩]⟩]⟩]

def pairState : Program × Summaries := (Source.layOut pairItems, ∅)

def pairRoster : Roster := .ofNodes [1, 0]

/-- Two records about `g`, the second without a name. -/
def pairRecords : List (Node × Record) := [(1, ⟨0, .function, false, some "f"⟩), (1, ⟨0, .kernel, true, none⟩)]

/-- A record about `f`. -/
def soloRecords : List (Node × Record) := [(0, ⟨1, .function, false, some "g"⟩)]

/-- A stream that declares a function, twice; and streams about different functions, in either order. -/
theorem read_merges_pairState :
    read pairRoster (read pairRoster pairState [1, 0, 10, 1, 104, 0]).1 [1, 0, 10, 1, 104, 0] =
        ((read pairRoster pairState [1, 0, 10, 1, 104, 0]).1, .ok 1) ∧
      read pairRoster (read pairRoster pairState (encodeRecords (pairRecords.map (·.2)))).1
          (encodeRecords (soloRecords.map (·.2))) =
        ((read pairRoster (read pairRoster pairState (encodeRecords (soloRecords.map (·.2)))).1
          (encodeRecords (pairRecords.map (·.2)))).1, .ok 1) :=
  ⟨(read_merges pairRoster pairState _ []).1 1 (by decide +kernel),
    ((read_merges pairRoster pairState _ _).2 pairRecords soloRecords
      (holds_encodeRecords
        (List.forall_mem_cons.mpr ⟨⟨rfl, by decide, by decide +kernel⟩,
          List.forall_mem_singleton.mpr ⟨rfl, by decide, by decide +kernel⟩⟩)
        (by decide +kernel) (by decide))
      (holds_encodeRecords (List.forall_mem_singleton.mpr ⟨rfl, by decide, by decide +kernel⟩) (by decide +kernel)
        (by decide)) (by decide) (by decide +kernel)).1⟩

end Accelerator.Stream
