import MarketDesk.Toml.Reader

/-!
# Tables are built from their statements

A document of tables without tables in them consists of a header for each table and a pair for each
of its members. When these statements are carried out one after another every table and every member
stands behind those before it, unless two have a name in common (`Toml.foldlM_statements`).
-/

namespace MarketDesk.Toml

open Wire (Value)

/-- The values of a table by their names. -/
abbrev Table := List (String × Value)

/-- The statements that go behind the header of a table. -/
def Table.pairs (t : Table) : List Statement := t.map fun m => .pair [m.1] m.2

/-- Tables by their names. -/
abbrev Tables := List (String × Table)

namespace Tables

/-- The statements of a document of these tables. -/
def statements (ts : Tables) : List Statement :=
  ts.flatMap fun t => .header [t.1] :: t.2.pairs

/-- Neither two of the tables nor two members of one of them have a name in common. -/
structure Distinct (ts : Tables) : Prop where
  tables : (ts.map Prod.fst).Nodup
  members : ∀ t ∈ ts, (t.2.map Prod.fst).Nodup

/-- The value of a document of these tables. -/
def toValue (ts : Tables) : Value := .fields (ts.map fun t => (t.1, .fields t.2))

end Tables

/-- The member of a table with a value. -/
def leaf (m : String × Value) : String × Node := (m.1, .value m.2)

/-- The member of a document with a table that has a header. -/
def branch (t : String × Table) : String × Node :=
  (t.1, .table true false (t.2.map leaf))

theorem valuesOf_leaf (t : Table) : valuesOf (t.map leaf) = t := by
  induction t with
  | nil => rfl
  | cons m t ih => rw [List.map_cons, leaf, valuesOf, ih, Node.toValue]

theorem valuesOf_branch (ts : Tables) :
    valuesOf (ts.map branch) = ts.map fun t => (t.1, .fields t.2) := by
  induction ts with
  | nil => rfl
  | cons t ts ih => rw [List.map_cons, branch, valuesOf, ih, Node.toValue, valuesOf_leaf,
      List.map_cons]

/-! ## Changing members -/

section Change

variable {name : String} {f : Option Node → Option Node} {ms : Members}

/-- A member with a new name stands behind the others. -/
theorem change_of_notMem (h : name ∉ ms.map Prod.fst) :
    change name f ms = (f none).map fun n => ms ++ [(name, n)] := by
  induction ms with
  | nil => rfl
  | cons m ms ih =>
    obtain ⟨hm, hms⟩ := List.ne_and_not_mem_of_not_mem_cons h
    rw [change, if_neg (Ne.symm hm), ih hms, Option.map_map]
    rfl

/-- The last member is changed where it stands. -/
theorem change_last (n : Node) (h : name ∉ ms.map Prod.fst) :
    change name f (ms ++ [(name, n)]) = (f (some n)).map fun n => ms ++ [(name, n)] := by
  induction ms with
  | nil => exact if_pos rfl
  | cons m ms ih =>
    obtain ⟨hm, hms⟩ := List.ne_and_not_mem_of_not_mem_cons h
    rw [List.cons_append, change, if_neg (Ne.symm hm), ih hms, Option.map_map]
    rfl

end Change

/-! ## Carrying out statements -/

/-- The first of the names that are still to come is a new one. -/
theorem notMem_of_nodup_append {seen later : List String} {name : String}
    (h : (seen ++ name :: later).Nodup) : name ∉ seen :=
  fun hmem => (List.nodup_append.mp h).2.2 name hmem name List.mem_cons_self rfl

section Step

variable {name key : String} {v : Value} {ms inner : Members} {path : List String}

theorem step_header (h : name ∉ ms.map Prod.fst) :
    Draft.step ⟨ms, path⟩ (.header [name]) =
      some ⟨ms ++ [(name, .table true false [])], [name]⟩ := by
  have hlookup : ms.lookup name = none := by
    rw [List.lookup_eq_none_iff]
    intro m hm
    simpa using fun hname => h (List.mem_map.mpr ⟨m, hm, hname.symm⟩)
  simp [Draft.step, within, openTable, hlookup]

theorem step_pair (h : name ∉ ms.map Prod.fst) (hkey : key ∉ inner.map Prod.fst) :
    Draft.step ⟨ms ++ [(name, .table true false inner)], [name]⟩ (.pair [key] v) =
      some ⟨ms ++ [(name, .table true false (inner ++ [(key, .value v)]))], [name]⟩ := by
  simp [Draft.step, within, change_last _ h, Node.changeMembers, addPair, addDotted, addValue,
    change_of_notMem hkey]

/-- The pairs behind a header go into its table. -/
theorem foldlM_pairs (h : name ∉ ms.map Prod.fst) (t : Table)
    (hinner : (inner.map Prod.fst ++ t.map Prod.fst).Nodup) :
    t.pairs.foldlM Draft.step ⟨ms ++ [(name, .table true false inner)], [name]⟩ =
      some ⟨ms ++ [(name, .table true false (inner ++ t.map leaf))], [name]⟩ := by
  -- Each pair makes the table longer, so the induction is for any members it already has.
  induction t generalizing inner with
  | nil => simp [Table.pairs]
  | cons m t ih =>
    have hlater : ((inner ++ [leaf m]).map Prod.fst ++ t.map Prod.fst).Nodup := by
      simpa [leaf] using hinner
    have hnext := ih hlater
    rw [List.append_assoc] at hnext
    rw [Table.pairs, List.map_cons, List.foldlM_cons, step_pair h (notMem_of_nodup_append hinner)]
    exact hnext

/-- Tables with different names are opened one behind the other, each filled with its own pairs. -/
theorem foldlM_statements_append (ts : Tables) (hts : ts.Distinct)
    (hms : (ms.map Prod.fst ++ ts.map Prod.fst).Nodup) :
    (ts.statements.foldlM Draft.step ⟨ms, path⟩).map Draft.members =
      some (ms ++ ts.map branch) := by
  induction ts generalizing ms path with
  | nil => simp [Tables.statements]
  | cons t ts ih =>
    have hname := notMem_of_nodup_append hms
    have hkeys : (([] : Members).map Prod.fst ++ t.2.map Prod.fst).Nodup :=
      hts.members t List.mem_cons_self
    have hrest : Tables.Distinct ts :=
      ⟨(List.nodup_cons.mp hts.tables).2, fun u hu => hts.members u (List.mem_cons_of_mem _ hu)⟩
    have hlater : ((ms ++ [branch t]).map Prod.fst ++ ts.map Prod.fst).Nodup := by
      simpa [branch] using hms
    have hnext := @ih (ms ++ [branch t]) [t.1] hrest hlater
    rw [List.append_assoc] at hnext
    rw [Tables.statements, List.flatMap_cons, List.foldlM_append, List.foldlM_cons,
      step_header hname]
    refine Eq.trans ?_ hnext
    rw [Option.bind_eq_bind, Option.bind_some, foldlM_pairs hname t.2 hkeys]
    rfl

end Step

/-- **Tables are built from their statements.** -/
theorem foldlM_statements {ts : Tables} (hts : ts.Distinct) :
    (ts.statements.foldlM Draft.step ⟨[], []⟩).map Draft.members = some (ts.map branch) :=
  foldlM_statements_append ts hts hts.tables

end MarketDesk.Toml
