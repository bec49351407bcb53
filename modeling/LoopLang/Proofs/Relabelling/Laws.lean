import LoopLang.Proofs.Relabelling.Relabelled
import LoopLang.Proofs.Tree.Source

namespace LoopLang

variable (r : Relabelling)

section Identity

mutual

theorem Expr.relabelled_refl : (e : Expr) → e.relabelled .refl = e
  | .literal _ _ => rfl
  | .place _ root steps => congrArg (Expr.place _ root) (Step.relabelledAll_refl steps)
  | .method _ root steps name _ args =>
    congrArg₂ (Expr.method _ root · name _ ·) (Step.relabelledAll_refl steps)
      (Expr.relabelledAll_refl args)
  | .call _ callee args => congrArg (Expr.call _ callee) (Expr.relabelledAll_refl args)
  | .math _ op left right =>
    congrArg₂ (Expr.math _ op) left.relabelled_refl right.relabelled_refl
  | .compare _ op left right =>
    congrArg₂ (Expr.compare _ op) left.relabelled_refl right.relabelled_refl
  | .unary _ op operand => congrArg (Expr.unary _ op) operand.relabelled_refl
  | .build _ name given => congrArg (Expr.build _ name) (Field.relabelledAll_refl given)
termination_by structural e => e

theorem Expr.relabelledAll_refl : (es : List Expr) → Expr.relabelledAll .refl es = es
  | [] => rfl
  | e :: es => congrArg₂ List.cons e.relabelled_refl (Expr.relabelledAll_refl es)
termination_by structural es => es

theorem Step.relabelledAll_refl : (steps : List Step) → Step.relabelledAll .refl steps = steps
  | [] => rfl
  | .index e :: steps =>
    congrArg₂ (fun e steps => Step.index e :: steps) e.relabelled_refl
      (Step.relabelledAll_refl steps)
  | .member _ _ :: steps => congrArg (List.cons _) (Step.relabelledAll_refl steps)
termination_by structural steps => steps

theorem Field.relabelledAll_refl : (given : List Field) → Field.relabelledAll .refl given = given
  | [] => rfl
  | .mk name _ value :: given =>
    congrArg₂ (fun value given => Field.mk name _ value :: given) value.relabelled_refl
      (Field.relabelledAll_refl given)
termination_by structural given => given

end

mutual

theorem Stmt.relabelled_refl : (s : Stmt) → s.relabelled .refl = s
  | .declare _ _ _ => rfl
  | .define _ name type value isConst =>
    congrArg (Stmt.define _ name type · isConst) value.relabelled_refl
  | .assign _ _ root steps value =>
    congrArg₂ (Stmt.assign _ _ root) (Step.relabelledAll_refl steps) value.relabelled_refl
  | .loop _ body => congrArg (Stmt.loop _) (Stmt.relabelledAll_refl body)
  | .choose _ ⟨test, body⟩ elifs none => by
    simp only [Stmt.relabelled, test.relabelled_refl, Stmt.relabelledAll_refl body,
      Stmt.relabelledBranches_refl elifs]
    rfl
  | .choose _ ⟨test, body⟩ elifs (some last) => by
    simp only [Stmt.relabelled, test.relabelled_refl, Stmt.relabelledAll_refl body,
      Stmt.relabelledBranches_refl elifs, Stmt.relabelledAll_refl last]
    rfl
  | .return _ none => rfl
  | .return _ (some value) =>
    congrArg (fun value => Stmt.return _ (some value)) value.relabelled_refl
  | .break _ => rfl
  | .continue _ => rfl
  | .call _ _ callee args => congrArg (Stmt.call _ _ callee) (Expr.relabelledAll_refl args)
  | .place _ _ root steps => congrArg (Stmt.place _ _ root) (Step.relabelledAll_refl steps)
  | .method _ _ root steps name _ args =>
    congrArg₂ (Stmt.method _ _ root · name _ ·) (Step.relabelledAll_refl steps)
      (Expr.relabelledAll_refl args)
termination_by structural s => s

theorem Stmt.relabelledAll_refl : (body : List Stmt) → Stmt.relabelledAll .refl body = body
  | [] => rfl
  | s :: rest => congrArg₂ List.cons s.relabelled_refl (Stmt.relabelledAll_refl rest)
termination_by structural body => body

theorem Stmt.relabelledBranches_refl : (branches : List (Branch Stmt)) →
    Stmt.relabelledBranches .refl branches = branches
  | [] => rfl
  | ⟨test, body⟩ :: rest => by
    simp only [Stmt.relabelledBranches, test.relabelled_refl, Stmt.relabelledAll_refl body,
      Stmt.relabelledBranches_refl rest]
termination_by structural branches => branches

end

theorem Function.relabelled_refl : relabelled .refl = id := by
  funext f
  rw [relabelled, Stmt.relabelledAll_refl]
  exact congrArg (fun params => { f with params }) (List.map_id _)

theorem Member.relabelled_refl : relabelled .refl = id := by
  funext m
  have defaults : Expr.relabelled .refl = id := funext Expr.relabelled_refl
  rw [relabelled, defaults, Option.map_id]
  rfl

theorem Struct.relabelled_refl : relabelled .refl = id := by
  funext s
  rw [relabelled, Member.relabelled_refl, List.map_id]
  rfl

end Identity

section Composition

variable (r' : Relabelling)

mutual

theorem Expr.relabelled_andThen : (e : Expr) →
    (e.relabelled r).relabelled r' = e.relabelled (r.andThen r')
  | .literal _ _ => rfl
  | .place _ root steps => congrArg (Expr.place _ root) (Step.relabelledAll_andThen steps)
  | .method _ root steps name _ args =>
    congrArg₂ (Expr.method _ root · name _ ·) (Step.relabelledAll_andThen steps)
      (Expr.relabelledAll_andThen args)
  | .call _ callee args => congrArg (Expr.call _ callee) (Expr.relabelledAll_andThen args)
  | .math _ op left right =>
    congrArg₂ (Expr.math _ op) left.relabelled_andThen right.relabelled_andThen
  | .compare _ op left right =>
    congrArg₂ (Expr.compare _ op) left.relabelled_andThen right.relabelled_andThen
  | .unary _ op operand => congrArg (Expr.unary _ op) operand.relabelled_andThen
  | .build _ name given => congrArg (Expr.build _ name) (Field.relabelledAll_andThen given)
termination_by structural e => e

theorem Expr.relabelledAll_andThen : (es : List Expr) →
    Expr.relabelledAll r' (Expr.relabelledAll r es) = Expr.relabelledAll (r.andThen r') es
  | [] => rfl
  | e :: es => congrArg₂ List.cons e.relabelled_andThen (Expr.relabelledAll_andThen es)
termination_by structural es => es

theorem Step.relabelledAll_andThen : (steps : List Step) →
    Step.relabelledAll r' (Step.relabelledAll r steps) = Step.relabelledAll (r.andThen r') steps
  | [] => rfl
  | .index e :: steps =>
    congrArg₂ (fun e steps => Step.index e :: steps) e.relabelled_andThen
      (Step.relabelledAll_andThen steps)
  | .member _ _ :: steps => congrArg (List.cons _) (Step.relabelledAll_andThen steps)
termination_by structural steps => steps

theorem Field.relabelledAll_andThen : (given : List Field) →
    Field.relabelledAll r' (Field.relabelledAll r given) = Field.relabelledAll (r.andThen r') given
  | [] => rfl
  | .mk name _ value :: given =>
    congrArg₂ (fun value given => Field.mk name _ value :: given) value.relabelled_andThen
      (Field.relabelledAll_andThen given)
termination_by structural given => given

end

mutual

theorem Stmt.relabelled_andThen : (s : Stmt) →
    (s.relabelled r).relabelled r' = s.relabelled (r.andThen r')
  | .declare _ _ _ => rfl
  | .define _ name type value isConst =>
    congrArg (Stmt.define _ name type · isConst) (value.relabelled_andThen r r')
  | .assign _ _ root steps value =>
    congrArg₂ (Stmt.assign _ _ root) (Step.relabelledAll_andThen r r' steps)
      (value.relabelled_andThen r r')
  | .loop _ body => congrArg (Stmt.loop _) (Stmt.relabelledAll_andThen body)
  | .choose _ ⟨test, body⟩ elifs none => by
    simp only [Stmt.relabelled, test.relabelled_andThen r r', Stmt.relabelledAll_andThen body,
      Stmt.relabelledBranches_andThen elifs]
    rfl
  | .choose _ ⟨test, body⟩ elifs (some last) => by
    simp only [Stmt.relabelled, test.relabelled_andThen r r', Stmt.relabelledAll_andThen body,
      Stmt.relabelledBranches_andThen elifs, Stmt.relabelledAll_andThen last]
    rfl
  | .return _ none => rfl
  | .return _ (some value) =>
    congrArg (fun value => Stmt.return _ (some value)) (value.relabelled_andThen r r')
  | .break _ => rfl
  | .continue _ => rfl
  | .call _ _ callee args =>
    congrArg (Stmt.call _ _ callee) (Expr.relabelledAll_andThen r r' args)
  | .place _ _ root steps =>
    congrArg (Stmt.place _ _ root) (Step.relabelledAll_andThen r r' steps)
  | .method _ _ root steps name _ args =>
    congrArg₂ (Stmt.method _ _ root · name _ ·) (Step.relabelledAll_andThen r r' steps)
      (Expr.relabelledAll_andThen r r' args)
termination_by structural s => s

theorem Stmt.relabelledAll_andThen : (body : List Stmt) →
    Stmt.relabelledAll r' (Stmt.relabelledAll r body) = Stmt.relabelledAll (r.andThen r') body
  | [] => rfl
  | s :: rest => congrArg₂ List.cons s.relabelled_andThen (Stmt.relabelledAll_andThen rest)
termination_by structural body => body

theorem Stmt.relabelledBranches_andThen : (branches : List (Branch Stmt)) →
    Stmt.relabelledBranches r' (Stmt.relabelledBranches r branches) =
      Stmt.relabelledBranches (r.andThen r') branches
  | [] => rfl
  | ⟨test, body⟩ :: rest => by
    simp only [Stmt.relabelledBranches, test.relabelled_andThen r r',
      Stmt.relabelledAll_andThen body, Stmt.relabelledBranches_andThen rest]
termination_by structural branches => branches

end

theorem Definition.relabelled_andThen (d : Definition) :
    (d.relabelled r).relabelled r' = d.relabelled (r.andThen r') := by
  cases d with
  | enum e => rfl
  | struct s =>
    obtain ⟨name, members, position⟩ := s
    have member (m : Member) : (m.relabelled r).relabelled r' = m.relabelled (r.andThen r') := by
      obtain ⟨name, type, default, position⟩ := m
      cases default with
      | none => rfl
      | some e =>
        exact congrArg (fun e => Member.mk name type (some e) _) (e.relabelled_andThen r r')
    simp only [Definition.relabelled, Struct.relabelled, List.map_map]
    congr 2
    exact List.map_congr_left fun m _ => member m
  | function f =>
    simp only [Definition.relabelled, Function.relabelled, List.map_map,
      Stmt.relabelledAll_andThen r r' f.body]
    rfl

end Composition

section Congruence

variable {r}
variable {r' : Relabelling} (places : r.place = r'.place)
include places

theorem Node.relabelled_congr {node : Node} (same : r.number node.id = r'.number node.id) :
    node.relabelled r = node.relabelled r' := by
  rw [relabelled, relabelled, same, places]

set_option linter.unusedSectionVars false in
mutual

theorem Expr.relabelled_congr : (e : Expr) → (∀ id ∈ e.ids, r.number id = r'.number id) →
    e.relabelled r = e.relabelled r'
  | .literal node _, same => by
    rw [Expr.relabelled, Expr.relabelled,
      node.relabelled_congr places (same _ (by simp [Expr.ids]))]
  | .place node root steps, same => by
    simp only [Expr.ids, List.forall_mem_append] at same
    rw [Expr.relabelled, Expr.relabelled, node.relabelled_congr places (same.2 _ (by simp)),
      Step.relabelledAll_congr steps same.1]
  | .method node root steps name nameAt args, same => by
    simp only [Expr.ids, List.forall_mem_append] at same
    rw [Expr.relabelled, Expr.relabelled, node.relabelled_congr places (same.2 _ (by simp)),
      Step.relabelledAll_congr steps same.1.1, Expr.relabelledAll_congr args same.1.2, places]
  | .call node callee args, same => by
    simp only [Expr.ids, List.forall_mem_append] at same
    rw [Expr.relabelled, Expr.relabelled, node.relabelled_congr places (same.2 _ (by simp)),
      Expr.relabelledAll_congr args same.1]
  | .math node op left right, same => by
    simp only [Expr.ids, List.forall_mem_append] at same
    rw [Expr.relabelled, Expr.relabelled, node.relabelled_congr places (same.2 _ (by simp)),
      left.relabelled_congr same.1.1, right.relabelled_congr same.1.2]
  | .compare node op left right, same => by
    simp only [Expr.ids, List.forall_mem_append] at same
    rw [Expr.relabelled, Expr.relabelled, node.relabelled_congr places (same.2 _ (by simp)),
      left.relabelled_congr same.1.1, right.relabelled_congr same.1.2]
  | .unary node op operand, same => by
    simp only [Expr.ids, List.forall_mem_append] at same
    rw [Expr.relabelled, Expr.relabelled, node.relabelled_congr places (same.2 _ (by simp)),
      operand.relabelled_congr same.1]
  | .build node name given, same => by
    simp only [Expr.ids, List.forall_mem_append] at same
    rw [Expr.relabelled, Expr.relabelled, node.relabelled_congr places (same.2 _ (by simp)),
      Field.relabelledAll_congr given same.1]
termination_by structural e => e

theorem Expr.relabelledAll_congr : (es : List Expr) →
    (∀ id ∈ Expr.idsOf es, r.number id = r'.number id) →
    Expr.relabelledAll r es = Expr.relabelledAll r' es
  | [], _ => rfl
  | e :: es, same => by
    simp only [Expr.idsOf, List.forall_mem_append] at same
    rw [Expr.relabelledAll, Expr.relabelledAll, e.relabelled_congr same.1,
      Expr.relabelledAll_congr es same.2]
termination_by structural es => es

theorem Step.relabelledAll_congr : (steps : List Step) →
    (∀ id ∈ Step.idsOf steps, r.number id = r'.number id) →
    Step.relabelledAll r steps = Step.relabelledAll r' steps
  | [], _ => rfl
  | .index e :: steps, same => by
    simp only [Step.idsOf, List.forall_mem_append] at same
    rw [Step.relabelledAll, Step.relabelledAll, Step.relabelled, Step.relabelled,
      e.relabelled_congr same.1, Step.relabelledAll_congr steps same.2]
  | .member name position :: steps, same => by
    rw [Step.relabelledAll, Step.relabelledAll, Step.relabelled, Step.relabelled, places,
      Step.relabelledAll_congr steps same]
termination_by structural steps => steps

theorem Field.relabelledAll_congr : (given : List Field) →
    (∀ id ∈ Field.idsOf given, r.number id = r'.number id) →
    Field.relabelledAll r given = Field.relabelledAll r' given
  | [], _ => rfl
  | .mk name position value :: given, same => by
    simp only [Field.idsOf, List.forall_mem_append] at same
    rw [Field.relabelledAll, Field.relabelledAll, Field.relabelled, Field.relabelled, places,
      value.relabelled_congr same.1, Field.relabelledAll_congr given same.2]
termination_by structural given => given

end

set_option linter.unusedSectionVars false in
mutual

theorem Stmt.relabelled_congr : (s : Stmt) → (∀ id ∈ s.ids, r.number id = r'.number id) →
    s.relabelled r = s.relabelled r'
  | .declare node name type, same => by
    rw [Stmt.relabelled, Stmt.relabelled,
      node.relabelled_congr places (same _ (by simp [Stmt.ids]))]
  | .define node name type value isConst, same => by
    rw [Stmt.ids, List.forall_mem_cons] at same
    rw [Stmt.relabelled, Stmt.relabelled, node.relabelled_congr places same.1,
      value.relabelled_congr places same.2]
  | .assign position target root steps value, same => by
    simp only [Stmt.ids, List.forall_mem_append] at same
    rw [Stmt.relabelled, Stmt.relabelled, target.relabelled_congr places (same.1.2 _ (by simp)),
      Step.relabelledAll_congr places steps same.1.1, value.relabelled_congr places same.2,
      places]
  | .loop position body, same => by
    rw [Stmt.relabelled, Stmt.relabelled, Stmt.relabelledAll_congr body same, places]
  | .choose position ⟨test, body⟩ elifs none, same => by
    simp only [Stmt.ids, List.forall_mem_append] at same
    rw [Stmt.relabelled, Stmt.relabelled, test.relabelled_congr places same.1.1.1,
      Stmt.relabelledAll_congr body same.1.1.2, Stmt.relabelledBranches_congr elifs same.1.2,
      places]
  | .choose position ⟨test, body⟩ elifs (some last), same => by
    simp only [Stmt.ids, List.forall_mem_append] at same
    rw [Stmt.relabelled, Stmt.relabelled, test.relabelled_congr places same.1.1.1,
      Stmt.relabelledAll_congr body same.1.1.2, Stmt.relabelledBranches_congr elifs same.1.2,
      places]
    simp only [Stmt.relabelledAll_congr last same.2]
  | .return position none, same => by
    rw [Stmt.relabelled, Stmt.relabelled, places]
    rfl
  | .return position (some value), same => by
    rw [Stmt.relabelled, Stmt.relabelled, Option.map_some, Option.map_some,
      value.relabelled_congr places same, places]
  | .break position, _ => by rw [Stmt.relabelled, Stmt.relabelled, places]
  | .continue position, _ => by rw [Stmt.relabelled, Stmt.relabelled, places]
  | .call position node callee args, same => by
    simp only [Stmt.ids, List.forall_mem_append] at same
    rw [Stmt.relabelled, Stmt.relabelled, node.relabelled_congr places (same.2 _ (by simp)),
      Expr.relabelledAll_congr places args same.1, places]
  | .place position node root steps, same => by
    simp only [Stmt.ids, List.forall_mem_append] at same
    rw [Stmt.relabelled, Stmt.relabelled, node.relabelled_congr places (same.2 _ (by simp)),
      Step.relabelledAll_congr places steps same.1, places]
  | .method position node root steps name nameAt args, same => by
    simp only [Stmt.ids, List.forall_mem_append] at same
    rw [Stmt.relabelled, Stmt.relabelled, node.relabelled_congr places (same.2 _ (by simp)),
      Step.relabelledAll_congr places steps same.1.1,
      Expr.relabelledAll_congr places args same.1.2, places]
termination_by structural s => s

theorem Stmt.relabelledAll_congr : (body : List Stmt) →
    (∀ id ∈ Stmt.idsOf body, r.number id = r'.number id) →
    Stmt.relabelledAll r body = Stmt.relabelledAll r' body
  | [], _ => rfl
  | s :: rest, same => by
    simp only [Stmt.idsOf, List.forall_mem_append] at same
    rw [Stmt.relabelledAll, Stmt.relabelledAll, s.relabelled_congr same.1,
      Stmt.relabelledAll_congr rest same.2]
termination_by structural body => body

theorem Stmt.relabelledBranches_congr : (branches : List (Branch Stmt)) →
    (∀ id ∈ Stmt.idsOfBranches branches, r.number id = r'.number id) →
    Stmt.relabelledBranches r branches = Stmt.relabelledBranches r' branches
  | [], _ => rfl
  | ⟨test, body⟩ :: rest, same => by
    simp only [Stmt.idsOfBranches, List.forall_mem_append] at same
    rw [Stmt.relabelledBranches, Stmt.relabelledBranches, test.relabelled_congr places same.1.1,
      Stmt.relabelledAll_congr body same.1.2, Stmt.relabelledBranches_congr rest same.2]
termination_by structural branches => branches

end

theorem Member.relabelled_congr {m : Member} (same : ∀ id ∈ m.ids, r.number id = r'.number id) :
    m.relabelled r = m.relabelled r' := by
  obtain ⟨name, type, default, position⟩ := m
  cases default with
  | none => rw [relabelled, relabelled, places, Option.map_none, Option.map_none]
  | some e =>
    rw [relabelled, relabelled, places, Option.map_some, Option.map_some,
      e.relabelled_congr places same]

theorem Definition.relabelled_congr {d : Definition}
    (same : ∀ id ∈ d.ids, r.number id = r'.number id) : d.relabelled r = d.relabelled r' := by
  cases d with
  | enum e => rw [relabelled, relabelled, places]
  | struct s =>
    have members : s.members.map (Member.relabelled r) = s.members.map (Member.relabelled r') := by
      refine List.map_congr_left fun m member => m.relabelled_congr places fun id own => ?_
      exact same id (List.mem_flatMap.mpr ⟨m, member, own⟩)
    rw [relabelled, relabelled, Struct.relabelled, Struct.relabelled, members, places]
  | function f =>
    rw [relabelled, relabelled, Function.relabelled, Function.relabelled,
      Stmt.relabelledAll_congr places f.body same, places]

end Congruence

section Places

variable (f : Relocation)

mutual

theorem Expr.relabelled_ofPlaces : (e : Expr) → e.relabelled (.ofPlaces f) = e.moved f
  | .literal _ _ => rfl
  | .place _ root steps => congrArg (Expr.place _ root) (Step.relabelledAll_ofPlaces steps)
  | .method _ root steps name _ args =>
    congrArg₂ (Expr.method _ root · name _ ·) (Step.relabelledAll_ofPlaces steps)
      (Expr.relabelledAll_ofPlaces args)
  | .call _ callee args => congrArg (Expr.call _ callee) (Expr.relabelledAll_ofPlaces args)
  | .math _ op left right =>
    congrArg₂ (Expr.math _ op) left.relabelled_ofPlaces right.relabelled_ofPlaces
  | .compare _ op left right =>
    congrArg₂ (Expr.compare _ op) left.relabelled_ofPlaces right.relabelled_ofPlaces
  | .unary _ op operand => congrArg (Expr.unary _ op) operand.relabelled_ofPlaces
  | .build _ name given => congrArg (Expr.build _ name) (Field.relabelledAll_ofPlaces given)
termination_by structural e => e

theorem Expr.relabelledAll_ofPlaces : (es : List Expr) →
    Expr.relabelledAll (.ofPlaces f) es = Expr.movedAll f es
  | [] => rfl
  | e :: es => congrArg₂ List.cons e.relabelled_ofPlaces (Expr.relabelledAll_ofPlaces es)
termination_by structural es => es

theorem Step.relabelledAll_ofPlaces : (steps : List Step) →
    Step.relabelledAll (.ofPlaces f) steps = Step.movedAll f steps
  | [] => rfl
  | .index e :: steps =>
    congrArg₂ (fun e steps => Step.index e :: steps) e.relabelled_ofPlaces
      (Step.relabelledAll_ofPlaces steps)
  | .member _ _ :: steps => congrArg (List.cons _) (Step.relabelledAll_ofPlaces steps)
termination_by structural steps => steps

theorem Field.relabelledAll_ofPlaces : (given : List Field) →
    Field.relabelledAll (.ofPlaces f) given = Field.movedAll f given
  | [] => rfl
  | .mk name _ value :: given =>
    congrArg₂ (fun value given => Field.mk name _ value :: given) value.relabelled_ofPlaces
      (Field.relabelledAll_ofPlaces given)
termination_by structural given => given

end

mutual

theorem Stmt.relabelled_ofPlaces : (s : Stmt) → s.relabelled (.ofPlaces f) = s.moved f
  | .declare _ _ _ => rfl
  | .define _ name type value isConst =>
    congrArg (Stmt.define _ name type · isConst) (value.relabelled_ofPlaces f)
  | .assign _ _ root steps value =>
    congrArg₂ (Stmt.assign _ _ root) (Step.relabelledAll_ofPlaces f steps)
      (value.relabelled_ofPlaces f)
  | .loop _ body => congrArg (Stmt.loop _) (Stmt.relabelledAll_ofPlaces body)
  | .choose _ ⟨test, body⟩ elifs none => by
    simp only [Stmt.relabelled, test.relabelled_ofPlaces f, Stmt.relabelledAll_ofPlaces body,
      Stmt.relabelledBranches_ofPlaces elifs]
    rfl
  | .choose _ ⟨test, body⟩ elifs (some last) => by
    simp only [Stmt.relabelled, test.relabelled_ofPlaces f, Stmt.relabelledAll_ofPlaces body,
      Stmt.relabelledBranches_ofPlaces elifs, Stmt.relabelledAll_ofPlaces last]
    rfl
  | .return _ none => rfl
  | .return _ (some value) =>
    congrArg (fun value => Stmt.return _ (some value)) (value.relabelled_ofPlaces f)
  | .break _ => rfl
  | .continue _ => rfl
  | .call _ _ callee args =>
    congrArg (Stmt.call _ _ callee) (Expr.relabelledAll_ofPlaces f args)
  | .place _ _ root steps =>
    congrArg (Stmt.place _ _ root) (Step.relabelledAll_ofPlaces f steps)
  | .method _ _ root steps name _ args =>
    congrArg₂ (Stmt.method _ _ root · name _ ·) (Step.relabelledAll_ofPlaces f steps)
      (Expr.relabelledAll_ofPlaces f args)
termination_by structural s => s

theorem Stmt.relabelledAll_ofPlaces : (body : List Stmt) →
    Stmt.relabelledAll (.ofPlaces f) body = Stmt.movedAll f body
  | [] => rfl
  | s :: rest => congrArg₂ List.cons s.relabelled_ofPlaces (Stmt.relabelledAll_ofPlaces rest)
termination_by structural body => body

theorem Stmt.relabelledBranches_ofPlaces : (branches : List (Branch Stmt)) →
    Stmt.relabelledBranches (.ofPlaces f) branches = Stmt.movedBranches f branches
  | [] => rfl
  | ⟨test, body⟩ :: rest => by
    simp only [Stmt.relabelledBranches, Stmt.movedBranches, test.relabelled_ofPlaces f,
      Stmt.relabelledAll_ofPlaces body, Stmt.relabelledBranches_ofPlaces rest]
termination_by structural branches => branches

end

theorem Function.relabelled_ofPlaces : relabelled (.ofPlaces f) = moved f := by
  funext g
  rw [relabelled, moved, Stmt.relabelledAll_ofPlaces]
  rfl

theorem Member.relabelled_ofPlaces : relabelled (.ofPlaces f) = moved f := by
  funext m
  have defaults : Expr.relabelled (.ofPlaces f) = Expr.moved f :=
    funext (Expr.relabelled_ofPlaces f)
  rw [relabelled, moved, defaults]
  rfl

theorem Struct.relabelled_ofPlaces : relabelled (.ofPlaces f) = moved f := by
  funext s
  rw [relabelled, moved, Member.relabelled_ofPlaces]
  rfl

theorem Definition.relabelled_ofPlaces : relabelled (.ofPlaces f) = moved f := by
  funext d
  cases d with
  | function g => exact congrArg function (congrFun (Function.relabelled_ofPlaces f) g)
  | struct s => exact congrArg struct (congrFun (Struct.relabelled_ofPlaces f) s)
  | enum e => rfl

theorem Fault.relabelled_ofPlaces : relabelled (.ofPlaces f) = moved f := by
  funext fault
  unfold relabelled
  split <;> rfl

theorem Outcome.relabelled_ofPlaces : relabelled (.ofPlaces f) = moved f := by
  funext outcome
  cases outcome with
  | failed fault => exact congrArg failed (congrFun (Fault.relabelled_ofPlaces f) fault)
  | _ => rfl

end Places
end LoopLang
