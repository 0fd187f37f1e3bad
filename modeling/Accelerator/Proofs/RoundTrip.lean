import Accelerator.Proofs.Codec
import Accelerator.Proofs.Reachable
import Accelerator.Proofs.Summaries

/-!
# Reading a stream back

A stream that was written for a program is read back into empty summaries.  Record by record the reader finds the
function at its place on the roster and the bound function under its name, so the program stays as it is and the
summary of every function that takes part comes back (`readRecords_encode`).  A record about a function that is not a
definition stops it (`readRecords_declaration`).  This needs numbers that fit into 64 bits, which holds of a stream that
can be held in memory (`Addressable`) and of one that is accepted (`read_write_of_ok`).
-/

namespace Accelerator.Stream

/-- A roster and a stream that can be held in memory, where a place is a number of 64 bits. -/
structure Addressable (roster : Roster) (bytes : List UInt8) : Prop where
  roster : roster.size < 2 ^ 64
  bytes : bytes.length < 2 ^ 64

variable {p : Program} {s : Summaries} {roster : Roster}

/-! ### The records of a roster -/

/-- The record of an entry of the roster, given as node and place. -/
def recordAt? (p : Program) (s : Summaries) (x : Node × Nat) : Option Record := recordOf? p s x.2 x.1

theorem records_eq (p : Program) (s : Summaries) (roster : Roster) :
    records p s roster = roster.nodes.zipIdx.filterMap (recordAt? p s) := by
  rw [records, List.mapIdx_eq_zipIdx_map, List.reduceOption, List.filterMap_map]
  rfl

private theorem recordAt?_eq_some {x : Node × Nat} (h : (s.of x.1).isParticipant = true) :
    recordAt? p s x = some ⟨x.2, (s.of x.1).kind, (s.of x.1).accelerator, (s.of x.1).bound.map p.name⟩ := by
  simp [recordAt?, recordOf?, h]

theorem recordAt?_eq_none {x : Node × Nat} (h : (s.of x.1).isParticipant = false) : recordAt? p s x = none := by
  simp [recordAt?, recordOf?, h]

private theorem length_records (p : Program) (s : Summaries) (roster : Roster) :
    (records p s roster).length = roster.nodes.countP fun n => (s.of n).isParticipant := by
  rw [records_eq, List.length_filterMap_eq_countP]
  have hfst : roster.nodes = roster.nodes.zipIdx.map Prod.fst := by simp
  conv_rhs => rw [hfst, List.countP_map]
  apply List.countP_congr
  intro x _
  cases h : (s.of x.1).isParticipant with
  | true => simp [recordAt?_eq_some h, h]
  | false => simp [recordAt?_eq_none h, h]

/-! ### Sizes -/

private theorem length_le_encodeRecords (rs : List Record) : rs.length ≤ (encodeRecords rs).length := by
  have hpos : ∀ r : Record, 1 ≤ r.encode.length := by
    intro r
    have := List.length_pos_iff.mpr (encodeNumber_ne_nil r.place)
    simp only [Record.encode, List.length_append]
    omega
  have hflat : rs.length ≤ (rs.flatMap Record.encode).length := by
    induction rs with
    | nil => simp
    | cons r rs ih =>
      have := hpos r
      simp only [List.flatMap_cons, List.length_append, List.length_cons]
      omega
  simp only [encodeRecords, List.length_append]
  omega

private theorem length_utf8_le_encodeRecords {rs : List Record} {r : Record} (hr : r ∈ rs) {t : String}
    (ht : r.bound = some t) : (utf8 t).length ≤ (encodeRecords rs).length := by
  have h₁ : (utf8 t).length ≤ r.encode.length := by
    simp [Record.encode, ht, encodeName]
    omega
  have h₂ : r.encode.length ≤ (rs.flatMap Record.encode).length := by
    have := List.sublist_flatten_of_mem (List.mem_map_of_mem (f := Record.encode) hr)
    rw [← List.flatMap_def] at this
    exact this.length_le
  simp only [encodeRecords, List.length_append]
  omega

/-- A record has the place of its function on the roster. -/
theorem node?_place {x : Node × Nat} (hx : x ∈ roster.nodes.zipIdx) {r : Record} (hr : recordAt? p s x = some r) :
    roster.node? r.place = some x.1 := by
  have hplace : r.place = x.2 := by
    cases hp : (s.of x.1).isParticipant with
    | true =>
      rw [recordAt?_eq_some hp] at hr
      cases hr
      rfl
    | false =>
      rw [recordAt?_eq_none hp] at hr
      cases hr
  rw [Roster.node?, hplace]
  exact List.mem_zipIdx_iff_getElem?.mp hx

/-- The records of an addressable stream are about the nodes of the roster. -/
private theorem Addressable.isAbout (h : Addressable roster (write p s roster)) {x : Node × Nat}
    (hx : x ∈ roster.nodes.zipIdx) {r : Record} (hr : recordAt? p s x = some r) : r.IsAbout roster x.1 := by
  have hnode := node?_place hx hr
  have hmem : r ∈ records p s roster := by
    rw [records_eq]
    exact List.mem_filterMap.mpr ⟨x, hx, hr⟩
  refine ⟨hnode, ?_, fun t ht => ?_⟩
  · obtain ⟨hlt, -⟩ := List.getElem?_eq_some_iff.mp hnode
    exact Nat.lt_trans hlt h.roster
  · exact Nat.lt_of_le_of_lt (length_utf8_le_encodeRecords hmem ht) h.bytes

/-! ### Reading -/

/-- The summaries after the participants among some nodes were entered. -/
def entered (s : Summaries) (ns : List Node) (t : Summaries) : Summaries :=
  ns.foldl (fun t n => if (s.of n).isParticipant then t.insert n (s.of n) else t) t

theorem of_entered (s : Summaries) (ns : List Node) (t : Summaries) (m : Node) :
    (entered s ns t).of m = if m ∈ ns ∧ (s.of m).isParticipant then s.of m else t.of m := by
  induction ns generalizing t with
  | nil => simp [entered]
  | cons n ns ih =>
    rw [entered, List.foldl_cons, ← entered, ih]
    by_cases hm : m = n
    · subst hm
      by_cases hp : (s.of m).isParticipant = true
      · simp [hp, Summaries.of_insert]
      · simp [hp]
    · by_cases hp : (s.of n).isParticipant = true
      · simp [hp, hm, Summaries.of_insert]
      · simp [hp, hm]

/-- A record of a function that was not looked at yet enters its summary and leaves the program alone. -/
private theorem apply_record (hp : p.Coherent) {x : Node × Nat} {r : Record} (hr : recordAt? p s x = some r)
    (hb : ∀ b, (s.of x.1).bound = some b → b ∈ p.live) {t : Summaries} (ht : t.of x.1 = {}) :
    r.apply x.1 (p, t) = (p, t.insert x.1 (s.of x.1)) := by
  have hpart : (s.of x.1).isParticipant = true := by
    by_contra hno
    rw [recordAt?_eq_none (by simpa using hno)] at hr
    cases hr
  rw [recordAt?_eq_some hpart] at hr
  cases hr
  cases hbound : (s.of x.1).bound with
  | none =>
    simp only [Record.apply, Option.map_none, Summaries.update, ht]
    rw [← hbound]
  | some b =>
    have hname := hp.names_of_live (hb b hbound)
    simp only [Record.apply, Option.map_some, Program.getOrDeclare, hname, Summaries.update]
    rw [← hbound]

private theorem readRecords_record (hp : p.Coherent) {x : Node × Nat} {r : Record} (hr : recordAt? p s x = some r)
    (habout : r.IsAbout roster x.1) (hd : (p.function x.1).flags.definition = true)
    (hb : ∀ b, (s.of x.1).bound = some b → b ∈ p.live) {t : Summaries} (ht : t.of x.1 = {}) (k : Nat)
    (rest : List UInt8) :
    readRecords roster (k + 1) (p, t) (r.encode ++ rest) = readRecords roster k (p, t.insert x.1 (s.of x.1)) rest := by
  rw [readRecords, reads_record habout hd]
  simp only [apply_record hp hr hb ht]

/-- Reading stops at a record that cannot be read. -/
private theorem isAbout_of_readRecords_record {n : Node} {r : Record} (hnode : roster.node? r.place = some n)
    {t : Summaries} {k : Nat} {rest rest' : List UInt8}
    (h : (readRecords roster (k + 1) (p, t) (r.encode ++ rest)).2 = .ok rest') :
    r.IsAbout roster n ∧ (p.function n).flags.definition = true := by
  rw [readRecords] at h
  split at h
  · cases h
  · rename_i hrecord
    exact isAbout_of_record hnode hrecord

variable {xs : List (Node × Nat)}

/-- The records of a list of entries are read back one by one, and the reader goes on with what follows. -/
theorem readRecords_encode (hp : p.Coherent)
    (habout : ∀ x ∈ xs, ∀ r, recordAt? p s x = some r → r.IsAbout roster x.1)
    (hdef : ∀ x ∈ xs, (s.of x.1).isParticipant = true → (p.function x.1).flags.definition = true)
    (hlive : ∀ x ∈ xs, (s.of x.1).isParticipant = true → ∀ b, (s.of x.1).bound = some b → b ∈ p.live)
    (hnodup : (xs.map Prod.fst).Nodup) {t : Summaries} (ht : ∀ x ∈ xs, t.of x.1 = {}) (k : Nat)
    (rest : List UInt8) :
    readRecords roster (k + (xs.filterMap (recordAt? p s)).length) (p, t)
        ((xs.filterMap (recordAt? p s)).flatMap Record.encode ++ rest) =
      readRecords roster k (p, entered s (xs.map Prod.fst) t) rest := by
  -- the entries to come were not looked at yet, because no node comes twice
  induction xs generalizing t with
  | nil => rfl
  | cons x xs ih =>
    rw [List.map_cons, List.nodup_cons] at hnodup
    have ih' := fun t ht => @ih (fun y hy => habout y (List.mem_cons_of_mem x hy))
      (fun y hy => hdef y (List.mem_cons_of_mem x hy)) (fun y hy => hlive y (List.mem_cons_of_mem x hy)) hnodup.2
      t ht
    cases hpart : (s.of x.1).isParticipant with
    | false =>
      rw [List.filterMap_cons_none (recordAt?_eq_none hpart), ih' t fun y hy => ht y (List.mem_cons_of_mem x hy)]
      simp [entered, hpart]
    | true =>
      have hr := recordAt?_eq_some (p := p) hpart
      have hnext := ih' (t.insert x.1 (s.of x.1)) fun y hy => by
        have hne : y.1 ≠ x.1 := fun he => hnodup.1 (he ▸ List.mem_map_of_mem hy)
        rw [Summaries.of_insert, if_neg hne, ht y (List.mem_cons_of_mem x hy)]
      rw [List.filterMap_cons_some hr, List.length_cons, List.flatMap_cons, List.append_assoc, ← Nat.add_assoc,
        readRecords_record hp hr (habout x List.mem_cons_self _ hr) (hdef x List.mem_cons_self hpart)
          (hlive x List.mem_cons_self hpart) (ht x List.mem_cons_self), hnext]
      simp [entered, hpart]

/-- If the records of a list of entries can be read, they are about definitions. -/
private theorem isAbout_of_readRecords (hp : p.Coherent)
    (hnode : ∀ x ∈ xs, ∀ r, recordAt? p s x = some r → roster.node? r.place = some x.1)
    (hlive : ∀ x ∈ xs, (s.of x.1).isParticipant = true → ∀ b, (s.of x.1).bound = some b → b ∈ p.live)
    (hnodup : (xs.map Prod.fst).Nodup) {t : Summaries} (ht : ∀ x ∈ xs, t.of x.1 = {}) {k : Nat}
    {rest rest' : List UInt8}
    (h : (readRecords roster (k + (xs.filterMap (recordAt? p s)).length) (p, t)
      ((xs.filterMap (recordAt? p s)).flatMap Record.encode ++ rest)).2 = .ok rest') :
    ∀ x ∈ xs, ∀ r, recordAt? p s x = some r → r.IsAbout roster x.1 ∧ (p.function x.1).flags.definition = true := by
  induction xs generalizing t with
  | nil => exact fun x hx => absurd hx List.not_mem_nil
  | cons x xs ih =>
    rw [List.map_cons, List.nodup_cons] at hnodup
    have ih' := fun t ht => @ih (fun y hy => hnode y (List.mem_cons_of_mem x hy))
      (fun y hy => hlive y (List.mem_cons_of_mem x hy)) hnodup.2 t ht
    intro y hy r' hr'
    cases hpart : (s.of x.1).isParticipant with
    | false =>
      rw [List.filterMap_cons_none (recordAt?_eq_none hpart)] at h
      rcases List.mem_cons.mp hy with rfl | hy
      · rw [recordAt?_eq_none hpart] at hr'
        cases hr'
      · exact ih' t (fun z hz => ht z (List.mem_cons_of_mem x hz)) h y hy r' hr'
    | true =>
      have hr := recordAt?_eq_some (p := p) hpart
      rw [List.filterMap_cons_some hr, List.length_cons, List.flatMap_cons, List.append_assoc, ← Nat.add_assoc] at h
      have habout := isAbout_of_readRecords_record (hnode x List.mem_cons_self _ hr) h
      rw [readRecords_record hp hr habout.1 habout.2 (hlive x List.mem_cons_self hpart) (ht x List.mem_cons_self)] at h
      rcases List.mem_cons.mp hy with rfl | hy
      · rw [hr] at hr'
        cases hr'
        exact habout
      · refine ih' (t.insert x.1 (s.of x.1)) (fun z hz => ?_) h y hy r' hr'
        have hne : z.1 ≠ x.1 := fun he => hnodup.1 (he ▸ List.mem_map_of_mem hz)
        rw [Summaries.of_insert, if_neg hne, ht z (List.mem_cons_of_mem x hz)]

/-- Reading stops at the record of a function that is not a definition. -/
theorem readRecords_declaration (hp : p.Coherent)
    (habout : ∀ x ∈ xs, ∀ r, recordAt? p s x = some r → r.IsAbout roster x.1)
    (hlive : ∀ x ∈ xs, (s.of x.1).isParticipant = true → ∀ b, (s.of x.1).bound = some b → b ∈ p.live)
    (hnodup : (xs.map Prod.fst).Nodup) {t : Summaries} (ht : ∀ x ∈ xs, t.of x.1 = {}) (rest : List UInt8)
    (hdecl : ∃ x ∈ xs, (s.of x.1).isParticipant = true ∧ (p.function x.1).flags.definition = false) :
    ∃ state bytes place title,
      readRecords roster (xs.filterMap (recordAt? p s)).length (p, t)
          ((xs.filterMap (recordAt? p s)).flatMap Record.encode ++ rest) =
        (state, .error ⟨bytes, .notDefinition place title⟩) := by
  -- split the entries at the first one that takes part and is not a definition
  have hfind : (xs.find? fun x => (s.of x.1).isParticipant && !(p.function x.1).flags.definition).isSome := by
    obtain ⟨x, hx, h₁, h₂⟩ := hdecl
    exact List.find?_isSome.mpr ⟨x, hx, by simp [h₁, h₂]⟩
  obtain ⟨x, hx⟩ := Option.isSome_iff_exists.mp hfind
  obtain ⟨hbad, before, after, rfl, hbefore⟩ := List.find?_eq_some_iff_append.mp hx
  simp only [Bool.and_eq_true, Bool.not_eq_true'] at hbad hbefore
  obtain ⟨hpart, hd⟩ := hbad
  have hr := recordAt?_eq_some (p := p) hpart
  have hsub : ∀ y ∈ before, y ∈ before ++ x :: after := fun y hy => List.mem_append_left _ hy
  have hin : x ∈ before ++ x :: after := by simp
  obtain ⟨bytes, hb⟩ := record_declaration (habout x hin _ hr) hd
    ((after.filterMap (recordAt? p s)).flatMap Record.encode ++ rest)
  have hdef : ∀ y ∈ before, (s.of y.1).isParticipant = true → (p.function y.1).flags.definition = true := by
    intro y hy h₁
    simpa [h₁] using hbefore y hy
  have hgo := readRecords_encode hp (fun y hy => habout y (hsub y hy)) hdef (fun y hy => hlive y (hsub y hy))
    (by rw [List.map_append] at hnodup; exact hnodup.of_append_left) (fun y hy => ht y (hsub y hy))
    ((after.filterMap (recordAt? p s)).length + 1)
  rw [List.filterMap_append, List.filterMap_cons_some hr, List.length_append, List.length_cons, List.flatMap_append,
    List.append_assoc, Nat.add_comm, hgo, List.flatMap_cons, List.append_assoc, readRecords, hb]
  exact ⟨_, _, _, _, rfl⟩

/-! ### What every record keeps -/

/-- A record is about a definition on the roster. -/
private theorem definition_of_record {bytes rest : List UInt8} {n : Node} {r : Record}
    (h : record roster p bytes = .ok ((n, r), rest)) :
    n ∈ roster.nodes ∧ (p.function n).flags.definition = true := by
  obtain ⟨-, -, -, hnode, hdef⟩ := (recognizes_record roster p _ _ _).mp h
  exact ⟨List.mem_of_getElem? hnode, hdef⟩

/-- What every record about a definition on the roster keeps holds after a stream was read, also if reading stopped
half-way. -/
theorem read_induction {P : Program × Summaries → Prop}
    (hstep : ∀ (state : Program × Summaries) (r : Record), ∀ n ∈ roster.nodes,
      (state.1.function n).flags.definition = true → P state → P (r.apply n state)) {state : Program × Summaries}
    (h : P state) (bytes : List UInt8) : P (read roster state bytes).1 := by
  have hrecords : ∀ count state bytes, P state → P (readRecords roster count state bytes).1 := by
    intro count
    induction count with
    | zero => exact fun _ _ h => h
    | succ count ih =>
      intro state bytes h
      unfold readRecords
      split
      · exact h
      · rename_i n r rest hrecord
        obtain ⟨hn, hdef⟩ := definition_of_record hrecord
        exact ih _ _ (hstep state r n hn hdef h)
  unfold read
  split
  · exact h
  · rename_i count rest _
    have hresult := hrecords count state rest h
    generalize readRecords roster count state rest = result at hresult
    split
    · exact hresult
    · split <;> exact hresult

/-! ### Whole streams -/

private theorem map_fst_zipIdx_nodes (roster : Roster) : roster.nodes.zipIdx.map Prod.fst = roster.nodes := by
  simp

/-- What is written about a roster is what the summaries say about its nodes. -/
private theorem write_congr {t : Summaries} (h : ∀ n ∈ roster.nodes, t.of n = s.of n ∨
    ((t.of n).isParticipant = false ∧ (s.of n).isParticipant = false)) : write p t roster = write p s roster := by
  rw [write, write, records_eq, records_eq]
  congr 1
  apply List.filterMap_congr
  intro x hx
  rcases h x.1 (List.fst_mem_of_mem_zipIdx hx) with heq | ⟨h₁, h₂⟩
  · rw [recordAt?, recordAt?, recordOf?, recordOf?, heq]
  · rw [recordAt?_eq_none h₁, recordAt?_eq_none h₂]

/-- A stream is read back into empty summaries if its functions are definitions and are bound to live functions. -/
private theorem read_write_of_isAbout (hp : p.Coherent) (hcount : (records p s roster).length < 2 ^ 64)
    (habout : ∀ x ∈ roster.nodes.zipIdx, ∀ r, recordAt? p s x = some r → r.IsAbout roster x.1)
    (hdef : ∀ n ∈ roster.nodes, (s.of n).isParticipant = true → (p.function n).flags.definition = true)
    (hlive : ∀ n ∈ roster.nodes, (s.of n).isParticipant = true → ∀ b, (s.of n).bound = some b → b ∈ p.live) :
    read roster (p, ∅) (write p s roster) =
      ((p, entered s roster.nodes ∅), .ok (roster.nodes.countP fun n => (s.of n).isParticipant)) := by
  have hrecords := readRecords_encode hp habout
    (fun x hx => hdef x.1 (List.fst_mem_of_mem_zipIdx hx)) (fun x hx => hlive x.1 (List.fst_mem_of_mem_zipIdx hx))
    (by rw [map_fst_zipIdx_nodes]; exact roster.nodup) (fun x _ => Summaries.of_empty x.1) 0 [0]
  rw [map_fst_zipIdx_nodes, ← records_eq, Nat.zero_add] at hrecords
  rw [read, write, encodeRecords, List.append_assoc, reads_number hcount]
  simp only [hrecords, readRecords]
  rw [← length_records p s roster]
  rfl

theorem read_write (hp : p.Coherent)
    (hdef : ∀ n ∈ roster.nodes, (s.of n).isParticipant = true → (p.function n).flags.definition = true)
    (hlive : ∀ n ∈ roster.nodes, (s.of n).isParticipant = true → ∀ b, (s.of n).bound = some b → b ∈ p.live)
    (hsize : Addressable roster (write p s roster)) :
    read roster (p, ∅) (write p s roster) =
      ((p, entered s roster.nodes ∅), .ok (roster.nodes.countP fun n => (s.of n).isParticipant)) :=
  read_write_of_isAbout hp (Nat.lt_of_le_of_lt (length_le_encodeRecords _) hsize.bytes)
    (fun _ hx _ hr => hsize.isAbout hx hr) hdef hlive

/-- A stream that is accepted is read back, whatever its size. -/
theorem read_write_of_ok (hp : p.Coherent)
    (hlive : ∀ n ∈ roster.nodes, (s.of n).isParticipant = true → ∀ b, (s.of n).bound = some b → b ∈ p.live)
    {count : Nat} (h : (read roster (p, ∅) (write p s roster)).2 = .ok count) :
    (read roster (p, ∅) (write p s roster)).1 = (p, entered s roster.nodes ∅) := by
  have hcount : (records p s roster).length < 2 ^ 64 := by
    rw [read, write, encodeRecords, List.append_assoc] at h
    cases hn : number (encodeNumber (records p s roster).length ++ _) with
    | error e =>
      rw [hn] at h
      cases h
    | ok x => exact lt_of_number hn
  have habout : ∀ x ∈ roster.nodes.zipIdx, ∀ r, recordAt? p s x = some r →
      r.IsAbout roster x.1 ∧ (p.function x.1).flags.definition = true := by
    have hread := h
    rw [read, write, encodeRecords, List.append_assoc, reads_number hcount] at hread
    dsimp only at hread
    rcases hrecords : readRecords roster (records p s roster).length (p, ∅)
        ((records p s roster).flatMap Record.encode ++ [0]) with ⟨state, result⟩
    cases result with
    | error e =>
      rw [hrecords] at hread
      cases hread
    | ok rest =>
      rw [records_eq, ← Nat.zero_add (List.length _)] at hrecords
      exact isAbout_of_readRecords hp (fun x hx r hr => node?_place hx hr)
        (fun x hx => hlive x.1 (List.fst_mem_of_mem_zipIdx hx)) (by rw [map_fst_zipIdx_nodes]; exact roster.nodup)
        (fun x _ => Summaries.of_empty x.1) (congrArg Prod.snd hrecords)
  have hdef : ∀ n ∈ roster.nodes, (s.of n).isParticipant = true → (p.function n).flags.definition = true := by
    intro n hn hpart
    rw [← map_fst_zipIdx_nodes roster] at hn
    obtain ⟨x, hx, rfl⟩ := List.mem_map.mp hn
    exact (habout x hx _ (recordAt?_eq_some hpart)).2
  rw [read_write_of_isAbout hp hcount (fun x hx r hr => (habout x hx r hr).1) hdef hlive]

/-- A stream with a function that is not a definition is refused. -/
theorem read_write_declaration (hp : p.Coherent)
    (hlive : ∀ n ∈ roster.nodes, (s.of n).isParticipant = true → ∀ b, (s.of n).bound = some b → b ∈ p.live)
    (hsize : Addressable roster (write p s roster))
    (hdecl : ∃ n ∈ roster.nodes, (s.of n).isParticipant = true ∧ (p.function n).flags.definition = false) :
    ∃ state fault, read roster (p, ∅) (write p s roster) = (state, .error fault) ∧ fault.isFatal = true := by
  have hcount : (records p s roster).length < 2 ^ 64 :=
    Nat.lt_of_le_of_lt (length_le_encodeRecords _) hsize.bytes
  have hdecl' : ∃ x ∈ roster.nodes.zipIdx,
      (s.of x.1).isParticipant = true ∧ (p.function x.1).flags.definition = false := by
    obtain ⟨n, hn, hbad⟩ := hdecl
    rw [← map_fst_zipIdx_nodes roster] at hn
    obtain ⟨x, hx, rfl⟩ := List.mem_map.mp hn
    exact ⟨x, hx, hbad⟩
  obtain ⟨state, bytes, place, title, hrecords⟩ := readRecords_declaration hp (fun x hx r hr => hsize.isAbout hx hr)
    (fun x hx => hlive x.1 (List.fst_mem_of_mem_zipIdx hx))
    (by rw [map_fst_zipIdx_nodes]; exact roster.nodup) (fun x _ => Summaries.of_empty x.1) [0] hdecl'
  rw [← records_eq] at hrecords
  rw [read, write, encodeRecords, List.append_assoc, reads_number hcount]
  simp only [hrecords]
  exact ⟨_, _, rfl, rfl⟩

/-- Reading back what was written for a roster, into empty summaries: the reader gives the number of functions on the
roster that take part and leaves the program alone, each of these functions gets its summary again, all others stay
without one, and writing the summaries that were read gives the same bytes. -/
theorem read_write_reachable (hp : p.Reachable)
    (hdef : ∀ n ∈ roster.nodes, (s.of n).isParticipant = true → (p.function n).flags.definition = true)
    (hlive : ∀ n ∈ roster.nodes, (s.of n).isParticipant = true → ∀ b, (s.of n).bound = some b → b ∈ p.live)
    (hsize : Addressable roster (write p s roster)) :
    ∃ t : Summaries,
      read roster (p, ∅) (write p s roster) =
        ((p, t), .ok (roster.nodes.countP fun n => (s.of n).isParticipant)) ∧
      (∀ n, t.of n = if n ∈ roster.nodes ∧ (s.of n).isParticipant = true then s.of n else {}) ∧
      write p t roster = write p s roster := by
  have hof : ∀ n, (entered s roster.nodes ∅).of n =
      if n ∈ roster.nodes ∧ (s.of n).isParticipant = true then s.of n else {} := by
    intro n
    rw [of_entered, Summaries.of_empty]
  refine ⟨entered s roster.nodes ∅, read_write hp.coherent hdef hlive hsize, hof, write_congr fun n hn => ?_⟩
  rw [hof]
  by_cases hpart : (s.of n).isParticipant = true
  · exact .inl (if_pos ⟨hn, hpart⟩)
  · rw [if_neg fun h => hpart h.2]
    exact .inr ⟨rfl, by simpa using hpart⟩

/-! ### A function with a clone -/

/-- A function to be cloned and a function that it calls. -/
def twinItems : List (Source.Item String) :=
  [.function ⟨"f", [], [.callable], {}, some [⟨"entry", [⟨none, .call "g" {}, []⟩, ⟨none, .other "ret", []⟩]⟩]⟩,
   .function ⟨"g", [], [], {}, some [⟨"entry", [⟨none, .other "ret", []⟩]⟩]⟩]

def twinText : String := "f() [hsa_function] \x7b\nentry: call @g()\nret\n\x7d g() \x7b entry: ret \x7d"

private theorem parse_twinText : Program.parse twinText = .ok (Source.layOut twinItems) := by decide +kernel

def twinProgram : Program := ((Source.layOut twinItems).clone 0 "hsa").2

def twinSummaries : Summaries := (∅ : Summaries).link 2 0 .function

def twinRoster : Roster := .ofNodes [2, 0, 1]

private theorem reachable_twinProgram : twinProgram.Reachable :=
  .clone (.parse parse_twinText) (by decide +kernel) "hsa"

/-- The clone comes first on the roster, and the stream holds the name that the function is bound to. -/
theorem read_write_twin :
    write twinProgram twinSummaries twinRoster = [2, 0, 6, 1, 10, 7, 102, 46, 104, 115, 97, 46, 48, 0] ∧
      ∃ t : Summaries,
        read twinRoster (twinProgram, ∅) (write twinProgram twinSummaries twinRoster) =
          ((twinProgram, t), .ok (twinRoster.nodes.countP fun n => (twinSummaries.of n).isParticipant)) ∧
        (∀ n, t.of n =
          if n ∈ twinRoster.nodes ∧ (twinSummaries.of n).isParticipant = true then twinSummaries.of n else {}) ∧
        write twinProgram t twinRoster = write twinProgram twinSummaries twinRoster :=
  ⟨by decide +kernel, read_write_reachable reachable_twinProgram (by decide +kernel) (by decide +kernel)
    ⟨by decide +kernel, by decide +kernel⟩⟩

end Accelerator.Stream
