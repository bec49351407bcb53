import LoopLang.Proofs.Tree.Spelled

namespace LoopLang

mutual

def Expr.inner : Expr → List Expr
  | .literal _ _ => []
  | .place _ _ steps => Step.exprsOf steps
  | .method _ _ steps _ _ args => Step.exprsOf steps ++ Expr.exprsOf args
  | .call _ _ args => Expr.exprsOf args
  | .math _ _ left right | .compare _ _ left right =>
    left.inner ++ left :: (right.inner ++ [right])
  | .unary _ _ operand => operand.inner ++ [operand]
  | .build _ _ given => Field.exprsOf given
termination_by structural e => e

def Expr.exprsOf : List Expr → List Expr
  | [] => []
  | e :: es => e.inner ++ e :: Expr.exprsOf es
termination_by structural es => es

def Step.exprsOf : List Step → List Expr
  | [] => []
  | .index e :: steps => e.inner ++ e :: Step.exprsOf steps
  | .member _ _ :: steps => Step.exprsOf steps
termination_by structural steps => steps

def Field.exprsOf : List Field → List Expr
  | [] => []
  | .mk _ _ value :: given => value.inner ++ value :: Field.exprsOf given
termination_by structural given => given

end

def Expr.all (e : Expr) : List Expr := e.inner ++ [e]

/-- What a node belongs to: an expression, or a variable with the value that defines it. -/
inductive Owner where
  | expr (e : Expr)
  | declared (node : Node) (value : Option Expr)

namespace Owner

def id : Owner → NodeId
  | expr e => e.id
  | declared node _ => node.id

def ids : Owner → List NodeId
  | expr e => e.ids
  | declared node value => node.id :: (value.map Expr.ids).getD []

end Owner

mutual

/-- The owners of the nodes of a statement, in the order of their numbers. What is assigned to and
    what is called stand for themselves. -/
def Stmt.owners : Stmt → List Owner
  | .declare node _ _ => [.declared node none]
  | .define node _ _ value _ => .declared node (some value) :: value.all.map .expr
  | .assign _ target root steps value =>
    (Expr.place target root steps).all.map .expr ++ value.all.map .expr
  | .loop _ body => Stmt.ownersOf body
  | .choose _ ⟨test, body⟩ elifs otherwise =>
    test.all.map .expr ++ Stmt.ownersOf body ++ Stmt.ownersOfBranches elifs ++
      match otherwise with
      | some body => Stmt.ownersOf body
      | none => []
  | .return _ (some value) => value.all.map .expr
  | .return _ none | .break _ | .continue _ => []
  | .call _ node callee args => (Expr.call node callee args).all.map .expr
  | .place _ node root steps => (Expr.place node root steps).all.map .expr
  | .method _ node root steps name nameAt args =>
    (Expr.method node root steps name nameAt args).all.map .expr
termination_by structural s => s

def Stmt.ownersOf : List Stmt → List Owner
  | [] => []
  | s :: rest => s.owners ++ Stmt.ownersOf rest
termination_by structural body => body

def Stmt.ownersOfBranches : List (Branch Stmt) → List Owner
  | [] => []
  | ⟨test, body⟩ :: rest =>
    test.all.map .expr ++ Stmt.ownersOf body ++ Stmt.ownersOfBranches rest
termination_by structural branches => branches

end

def Member.owners (m : Member) : List Owner := (m.default.map fun e => e.all.map .expr).getD []

def Struct.owners (s : Struct) : List Owner := s.members.flatMap Member.owners

def Definition.owners : Definition → List Owner
  | function f => Stmt.ownersOf f.body
  | struct s => s.owners
  | enum _ => []

def Globals.owners (g : Globals) : List Owner :=
  g.structs.flatMap Struct.owners ++ g.functions.flatMap fun f => Stmt.ownersOf f.body

namespace Owner

/-- The owners have these numbers, each with those inside of it among them. -/
structure Have (owners : List Owner) (ids : List NodeId) : Prop where
  numbers : owners.map id = ids
  within : ∀ o ∈ owners, o.ids.Sublist ids

variable {front back : List Owner} {ids ids' : List NodeId}

theorem Have.nil : Have [] [] := ⟨rfl, List.forall_mem_nil _⟩

theorem Have.append (h : Have front ids) (h' : Have back ids') :
    Have (front ++ back) (ids ++ ids') := by
  refine ⟨by rw [List.map_append, h.numbers, h'.numbers], ?_⟩
  refine List.forall_mem_append.mpr ⟨fun o own => ?_, fun o own => ?_⟩
  · exact (h.within o own).trans (List.sublist_append_left _ _)
  · exact (h'.within o own).trans (List.sublist_append_right _ _)

theorem Have.all {e : Expr} (h : Have (e.inner.map .expr) ids) (own : e.ids = ids ++ [e.id]) :
    Have (e.all.map .expr) e.ids := by
  rw [Expr.all, List.map_append]
  constructor
  · rw [List.map_append, h.numbers, own]
    rfl
  · refine List.forall_mem_append.mpr ⟨fun o inside => ?_, fun o last => ?_⟩
    · rw [own]
      exact (h.within o inside).trans (List.sublist_append_left _ _)
    · rw [List.mem_singleton.mp last]
      exact List.Sublist.refl _

theorem Have.cons {e : Expr} {es : List Expr} (h : Have (e.all.map .expr) e.ids)
    (h' : Have (es.map .expr) ids') : Have ((e.inner ++ e :: es).map .expr) (e.ids ++ ids') := by
  have joined := h.append h'
  rwa [← List.map_append, Expr.all, List.append_assoc] at joined

theorem Have.value (node : Node) {value : Expr} (h : Have (value.all.map .expr) value.ids) :
    Have (.declared node (some value) :: value.all.map .expr) (node.id :: value.ids) := by
  constructor
  · rw [List.map_cons, h.numbers]
    rfl
  · refine List.forall_mem_cons.mpr ⟨List.Sublist.refl _, fun o inside => ?_⟩
    exact (h.within o inside).trans (List.sublist_cons_self _ _)

end Owner

mutual

theorem Expr.all_have : (e : Expr) → Owner.Have (e.all.map .expr) e.ids
  | .literal _ _ => .all .nil rfl
  | .place _ _ steps => .all (Step.exprsOf_have steps) rfl
  | .method _ _ steps _ _ args => by
    refine .all ?_ rfl
    rw [Expr.inner, List.map_append]
    exact (Step.exprsOf_have steps).append (Expr.exprsOf_have args)
  | .call _ _ args => .all (Expr.exprsOf_have args) rfl
  | .math _ _ left right | .compare _ _ left right =>
    .all (left.all_have.cons right.all_have) rfl
  | .unary _ _ operand => .all operand.all_have rfl
  | .build _ _ given => .all (Field.exprsOf_have given) rfl
termination_by structural e => e

theorem Expr.exprsOf_have : (es : List Expr) →
    Owner.Have ((Expr.exprsOf es).map .expr) (Expr.idsOf es)
  | [] => .nil
  | e :: es => e.all_have.cons (Expr.exprsOf_have es)
termination_by structural es => es

theorem Step.exprsOf_have : (steps : List Step) →
    Owner.Have ((Step.exprsOf steps).map .expr) (Step.idsOf steps)
  | [] => .nil
  | .index e :: steps => e.all_have.cons (Step.exprsOf_have steps)
  | .member _ _ :: steps => Step.exprsOf_have steps
termination_by structural steps => steps

theorem Field.exprsOf_have : (given : List Field) →
    Owner.Have ((Field.exprsOf given).map .expr) (Field.idsOf given)
  | [] => .nil
  | .mk _ _ value :: given => value.all_have.cons (Field.exprsOf_have given)
termination_by structural given => given

end

mutual

theorem Stmt.owners_have : (s : Stmt) → Owner.Have s.owners s.ids
  | .declare _ _ _ => ⟨rfl, List.forall_mem_singleton.mpr (List.Sublist.refl _)⟩
  | .define node _ _ value _ => .value node value.all_have
  | .assign _ target root steps value =>
    (Expr.place target root steps).all_have.append value.all_have
  | .loop _ body => Stmt.ownersOf_have body
  | .choose _ ⟨test, body⟩ elifs none =>
    ((test.all_have.append (Stmt.ownersOf_have body)).append
      (Stmt.ownersOfBranches_have elifs)).append .nil
  | .choose _ ⟨test, body⟩ elifs (some last) =>
    ((test.all_have.append (Stmt.ownersOf_have body)).append
      (Stmt.ownersOfBranches_have elifs)).append (Stmt.ownersOf_have last)
  | .return _ (some value) => value.all_have
  | .return _ none | .break _ | .continue _ => .nil
  | .call _ node callee args => (Expr.call node callee args).all_have
  | .place _ node root steps => (Expr.place node root steps).all_have
  | .method _ node root steps name nameAt args =>
    (Expr.method node root steps name nameAt args).all_have
termination_by structural s => s

theorem Stmt.ownersOf_have : (body : List Stmt) → Owner.Have (Stmt.ownersOf body) (Stmt.idsOf body)
  | [] => .nil
  | s :: rest => s.owners_have.append (Stmt.ownersOf_have rest)
termination_by structural body => body

theorem Stmt.ownersOfBranches_have : (branches : List (Branch Stmt)) →
    Owner.Have (Stmt.ownersOfBranches branches) (Stmt.idsOfBranches branches)
  | [] => .nil
  | ⟨test, body⟩ :: rest =>
    (test.all_have.append (Stmt.ownersOf_have body)).append (Stmt.ownersOfBranches_have rest)
termination_by structural branches => branches

end

theorem Struct.owners_have (s : Struct) : Owner.Have s.owners s.ids := by
  rw [owners, ids]
  induction s.members with
  | nil => exact .nil
  | cons m members ih =>
    rw [List.flatMap_cons, List.flatMap_cons]
    refine Owner.Have.append ?_ ih
    rw [Member.owners, Member.ids]
    cases m.default with
    | none => exact .nil
    | some e => exact e.all_have

theorem Definition.owners_have : (d : Definition) → Owner.Have d.owners d.ids
  | .function f => Stmt.ownersOf_have f.body
  | .struct s => s.owners_have
  | .enum _ => .nil

namespace Owner

/-- The numbers of what is inside stand to that of the owner as they do in a text. -/
def Ordered : Owner → Prop
  | expr e => ∀ e' ∈ e.inner, e'.id < e.id
  | declared node value => ∀ v ∈ value, ∀ e ∈ v.all, node.id < e.id

theorem ordered_of_pairwise {o : Owner} (increasing : o.ids.Pairwise (· < ·)) : o.Ordered := by
  cases o with
  | expr e =>
    rw [ids, ← e.all_have.numbers, Expr.all, List.map_append, List.map_append,
      List.pairwise_append] at increasing
    intro e' inside
    refine increasing.2.2 _ ?_ _ (List.mem_singleton_self _)
    exact List.mem_map_of_mem (List.mem_map_of_mem inside)
  | declared node value =>
    rintro v ⟨⟩ e inside
    refine (List.pairwise_cons.mp increasing).1 _ ?_
    change e.id ∈ v.ids
    rw [← v.all_have.numbers]
    exact List.mem_map_of_mem (List.mem_map_of_mem inside)

end Owner

namespace Globals

variable {g : Globals} {source : String}

theorem owners_numbers (g : Globals) : g.owners.map Owner.id = g.ids := by
  rw [owners, ids, List.map_append, List.map_flatMap, List.map_flatMap]
  congr 1
  · exact List.flatMap_congr fun s _ => s.owners_have.numbers
  · exact List.flatMap_congr fun f _ => (Stmt.ownersOf_have f.body).numbers

theorem mem_owners_iff {o : Owner} : o ∈ g.owners ↔ ∃ d ∈ g.byKind, o ∈ d.owners := by
  simp only [owners, byKind, List.mem_append, List.mem_flatMap, List.mem_map]
  constructor
  · rintro (⟨s, member, own⟩ | ⟨f, member, own⟩)
    · exact ⟨.struct s, .inl (.inr ⟨s, member, rfl⟩), own⟩
    · exact ⟨.function f, .inl (.inl ⟨f, member, rfl⟩), own⟩
  · rintro ⟨d, (⟨f, member, rfl⟩ | ⟨s, member, rfl⟩) | ⟨e, _, rfl⟩, own⟩
    · exact .inr ⟨f, member, own⟩
    · exact .inl ⟨s, member, own⟩
    · cases own

theorem increasing_of_parse (parsed : parse source = .ok g) :
    ∀ d ∈ g.byKind, d.ids.Pairwise (· < ·) := by
  rw [parse] at parsed
  split at parsed
  · cases parsed
  · obtain ⟨ds, spelled, added⟩ := spells_of_parseOnto parsed
    obtain ⟨n, _, numbers⟩ := spelled.numbered (Parse.Numbered.nil 0)
    rw [List.nil_append] at numbers
    have increasing : (ds.flatMap Definition.ids).Pairwise (· < ·) := by
      rw [numbers]
      exact List.pairwise_lt_range'
    intro d member
    have among : d ∈ ds := by simpa [byKind, empty] using (byKind_addAll added).subset member
    exact (List.pairwise_flatMap.mp increasing).1 d among

/-- The nodes of a program that a text spells are numbered from zero without gaps and without
    repetition. The number of an expression is greater than all numbers inside of it, and that of
    a variable smaller than all numbers in its value. -/
theorem numbered_of_parse (parsed : parse source = .ok g) :
    (g.owners.map Owner.id).Perm (List.range g.owners.length) ∧
    (∀ e, .expr e ∈ g.owners → ∀ e' ∈ e.inner, e'.id < e.id) ∧
    ∀ node value, .declared node (some value) ∈ g.owners → ∀ e ∈ value.all, node.id < e.id := by
  have ordered : ∀ o ∈ g.owners, o.Ordered := by
    intro o member
    obtain ⟨d, defined, own⟩ := mem_owners_iff.mp member
    have part := d.owners_have.within o own
    exact Owner.ordered_of_pairwise ((increasing_of_parse parsed d defined).sublist part)
  obtain ⟨count, written⟩ := parse_written parsed
  have numbers := written.ids
  rw [← owners_numbers] at numbers
  have length := numbers.length_eq
  rw [List.length_map, List.length_range] at length
  subst length
  refine ⟨numbers, fun e => ordered _, fun node value member => ?_⟩
  exact ordered _ member value rfl

def hoarding : String :=
  "func main() { xs: [Pot]; n: u8 = xs[1 - -2].of; if (not f(n, 3)) { xs[n].of = n * 4; } } " ++
  "func add(xs: *[Pot], n: u8) { xs.append(Pot { of: n }); return; } struct Pot { of: u8 = 7 }"

set_option maxRecDepth 100000 in
theorem hoarding_numbered : ∃ g, parse hoarding = .ok g ∧ g.owners.length = 19 ∧
    (g.owners.map Owner.id).Perm (List.range g.owners.length) ∧
    (∀ e, .expr e ∈ g.owners → ∀ e' ∈ e.inner, e'.id < e.id) ∧
    ∀ node value, .declared node (some value) ∈ g.owners → ∀ e ∈ value.all, node.id < e.id := by
  have facts : (parse hoarding).toOption.any fun g => g.owners.length == 19 := by
    decide +kernel
  obtain ⟨g, parsed, length⟩ := exists_of_any facts
  exact ⟨g, parsed, eq_of_beq length, numbered_of_parse parsed⟩

end Globals
end LoopLang
