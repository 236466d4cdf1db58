import MapAlgebra.Source.Finding
import Mathlib.Data.List.Basic

namespace MapAlgebra.Source

-- What a name in a body refers to.
inductive Origin where
  | outside
  -- What a declaration of the body declares.
  | declared
  -- What another pattern of the body binds, or what is not looked into in a declaration.
  | matched
deriving DecidableEq

-- The names that are bound somewhere in a body, the innermost first.
abbrev Scope := List (String × Origin)

def Scope.origin (scope : Scope) (name : String) : Origin := (scope.lookup name).getD .outside

mutual

-- All names that a pattern binds.
def Pattern.bound : Pattern → List String
  | .bind name also => name :: Pattern.boundOfAll also
  | .group parts => Pattern.boundOfAll parts
  | .either cases => Pattern.boundOfAll cases
  | .paren inner => inner.bound
  | .closed => []

def Pattern.boundOfAll : List Pattern → List String
  | [] => []
  | part :: parts => part.bound ++ Pattern.boundOfAll parts

end

def Pattern.declares (pattern : Pattern) : Scope :=
  pattern.bound.map fun name =>
    (name, if pattern.names.contains name then .declared else .matched)

def Pattern.matches (patterns : List Pattern) : Scope :=
  (Pattern.boundOfAll patterns).map (·, .matched)

mutual

-- The names that a statement binds for those after it, and a condition for what it guards. Joined
-- conditions bind one after the other.
-- Only variables are bound here. An item, such as a static variable or an imported name, brings
-- nothing, so an assignment to it counts as one to a name from outside. A raw name is another name
-- than the same word without its mark. What a macro is given is not read at all, and neither binds
-- nor assigns.
def Code.brings : Code → Scope
  | .declare pattern _ _ _ => pattern.declares
  | .test pattern _ _ => Pattern.matches [pattern]
  | .parts inner => Code.bringsOfAll inner
  | _ => []

def Code.bringsOfAll : List Code → Scope
  | [] => []
  | code :: rest => Code.bringsOfAll rest ++ code.brings

end

-- The name that is left of a form without positions and brackets.
def Code.base? : Code → Option String
  | .name text => some text
  | .index base _ => base.base?
  | .paren inner => inner.base?
  | _ => none

-- An assignment to a name, which may stand inside the left side of a plain assignment.
structure Assignment where
  name : String
  origin : Origin
  hidden : Bool
deriving DecidableEq

def Assignment.hide (assignment : Assignment) : Assignment := { assignment with hidden := true }

def Scope.assigned (scope : Scope) (code : Code) : List Assignment :=
  code.base?.toList.map fun name => ⟨name, scope.origin name, false⟩

mutual

-- The assignments of a form, in the order of the text. A declaration holds from the next statement
-- on, and a function sees nothing of what is bound around it.
def Code.assignments (scope : Scope) : Code → List Assignment
  | .name _ | .placeholder => []
  | .path constants => Code.assignmentsOfAll scope constants
  | .paren inner => inner.assignments scope
  | .tuple items => Code.assignmentsOfAll scope items
  | .field base => base.assignments scope
  | .index base position => base.assignments scope ++ position.assignments scope
  | .dereference base => base.assignments scope
  | .assign left right =>
      scope.assigned left ++ (left.assignments scope).map Assignment.hide ++
        right.assignments scope
  | .update left right =>
      scope.assigned left ++ left.assignments scope ++ right.assignments scope
  | .method receiver called arguments =>
      (if changesReceiver called then scope.assigned receiver else []) ++
        receiver.assignments scope ++ Code.assignmentsOfAll scope arguments
  | .parts inner => Code.assignmentsOfAll scope inner
  | .block _ body => Code.assignmentsOfAll scope body
  | .detached body => Code.assignmentsOfAll scope body
  | .branch condition yes no =>
      condition.assignments scope ++ Code.assignmentsOfAll (condition.brings ++ scope) yes ++
        Code.assignmentsOfAll scope no
  | .select value arms => value.assignments scope ++ Code.assignmentsOfAll scope arms
  | .arm pattern constants guard result =>
      Code.assignmentsOfAll scope constants ++
        Code.assignmentsOfAll (Pattern.matches [pattern] ++ scope) guard ++
        result.assignments (Code.bringsOfAll guard ++ Pattern.matches [pattern] ++ scope)
  | .test _ constants value =>
      Code.assignmentsOfAll scope constants ++ value.assignments scope
  | .declare _ constants value otherwise =>
      Code.assignmentsOfAll scope constants ++ Code.assignmentsOfAll scope value ++
        Code.assignmentsOfAll scope otherwise
  | .whileLoop _ condition body =>
      condition.assignments scope ++ Code.assignmentsOfAll (condition.brings ++ scope) body
  | .forLoop _ pattern constants range body =>
      Code.assignmentsOfAll scope constants ++ range.assignments scope ++
        Code.assignmentsOfAll (Pattern.matches [pattern] ++ scope) body
  | .endless _ body => Code.assignmentsOfAll scope body
  | .closure parameters constants body =>
      Code.assignmentsOfAll scope constants ++
        body.assignments (Pattern.matches parameters ++ scope)
  | .function parameters constants body =>
      Code.assignmentsOfAll [] constants ++
        Code.assignmentsOfAll (Pattern.matches parameters) body
  | .leave _ value => Code.assignmentsOfAll scope value
  | .again _ => []

def Code.assignmentsOfAll (scope : Scope) : List Code → List Assignment
  | [] => []
  | code :: rest =>
      code.assignments scope ++ Code.assignmentsOfAll (code.brings ++ scope) rest

end

section Visited

-- The names of those assignments that are not hidden.
def visited (assignments : List Assignment) : List String :=
  (assignments.filter (!·.hidden)).map Assignment.name

@[simp] theorem visited_nil : visited [] = [] := rfl

@[simp] theorem visited_append (earlier later : List Assignment) :
    visited (earlier ++ later) = visited earlier ++ visited later := by
  simp [visited]

@[simp] theorem visited_hide (assignments : List Assignment) :
    visited (assignments.map Assignment.hide) = [] := by
  simp [visited, Assignment.hide]

theorem assigned?_target (code : Code) :
    code.target.filterMap Finding.assigned? = code.base?.toList := by
  induction code using Code.target.induct <;>
    simp_all [Code.target, Code.base?, Finding.assigned?]

@[simp] theorem visited_assigned (scope : Scope) (code : Code) :
    visited (scope.assigned code) = code.target.filterMap Finding.assigned? := by
  rw [assigned?_target]
  cases h : code.base? <;> simp [Scope.assigned, visited, h]

@[simp] theorem visited_receiver (scope : Scope) (receiver : Code) (called : String) :
    visited (if changesReceiver called then scope.assigned receiver else []) =
      (if changesReceiver called then receiver.target else []).filterMap Finding.assigned? := by
  split
  · exact visited_assigned scope receiver
  · rfl

@[simp] theorem assigned?_jump (enclosed : Bool) (fault : Fault) :
    (jump enclosed fault).filterMap Finding.assigned? = [] := by
  cases enclosed <;> rfl

mutual

-- All assignments are found but those inside the left sides of plain assignments.
theorem Code.visited_assignments (code : Code) (scope : Scope) (enclosed : Bool) :
    visited (code.assignments scope) = (code.findings enclosed).filterMap Finding.assigned? := by
  cases code with
  | name | placeholder => rfl
  | path parts | tuple parts | parts parts | detached parts =>
      exact Code.visited_assignmentsOfAll parts scope enclosed
  | block _ body => exact Code.visited_assignmentsOfAll body scope enclosed
  | endless _ body => exact Code.visited_assignmentsOfAll body scope true
  | paren inner | field inner | dereference inner =>
      exact inner.visited_assignments scope enclosed
  | index base position =>
      simp [Code.findings, Code.assignments, base.visited_assignments scope enclosed,
        position.visited_assignments scope enclosed]
  | assign left right =>
      simp [Code.findings, Code.assignments, right.visited_assignments scope enclosed]
  | update left right =>
      simp [Code.findings, Code.assignments, left.visited_assignments scope enclosed,
        right.visited_assignments scope enclosed]
  | method receiver called arguments =>
      simp [Code.findings, Code.assignments, receiver.visited_assignments scope enclosed,
        Code.visited_assignmentsOfAll arguments scope enclosed]
  | branch condition yes no =>
      simp [Code.findings, Code.assignments, condition.visited_assignments scope enclosed,
        Code.visited_assignmentsOfAll yes _ enclosed, Code.visited_assignmentsOfAll no _ enclosed]
  | select value arms =>
      simp [Code.findings, Code.assignments, value.visited_assignments scope enclosed,
        Code.visited_assignmentsOfAll arms scope enclosed]
  | arm _ constants guard result =>
      simp [Code.findings, Code.assignments, Code.visited_assignmentsOfAll constants _ enclosed,
        Code.visited_assignmentsOfAll guard _ enclosed, result.visited_assignments _ enclosed]
  | test _ constants value =>
      simp [Code.findings, Code.assignments, Code.visited_assignmentsOfAll constants _ enclosed,
        value.visited_assignments _ enclosed]
  | declare pattern constants value otherwise =>
      simp [Code.findings, Code.assignments, Code.visited_assignmentsOfAll constants _ enclosed,
        Code.visited_assignmentsOfAll value _ enclosed,
        Code.visited_assignmentsOfAll otherwise _ enclosed, Finding.assigned?]
  | whileLoop _ condition body =>
      simp [Code.findings, Code.assignments, condition.visited_assignments _ true,
        Code.visited_assignmentsOfAll body _ true]
  | forLoop _ _ constants range body =>
      simp [Code.findings, Code.assignments, Code.visited_assignmentsOfAll constants _ true,
        range.visited_assignments _ true, Code.visited_assignmentsOfAll body _ true]
  | closure _ constants body =>
      simp [Code.findings, Code.assignments, Code.visited_assignmentsOfAll constants _ true,
        body.visited_assignments _ true]
  | function _ constants body =>
      simp [Code.findings, Code.assignments, Code.visited_assignmentsOfAll constants _ enclosed,
        Code.visited_assignmentsOfAll body _ enclosed]
  | leave _ value =>
      simp [Code.findings, Code.assignments, Code.visited_assignmentsOfAll value _ enclosed]
  | again _ => simp [Code.findings, Code.assignments]

theorem Code.visited_assignmentsOfAll (codes : List Code) (scope : Scope) (enclosed : Bool) :
    visited (Code.assignmentsOfAll scope codes) =
      (Code.findingsOfAll enclosed codes).filterMap Finding.assigned? := by
  cases codes with
  | nil => rfl
  | cons code rest =>
      simp [Code.findingsOfAll, Code.assignmentsOfAll, code.visited_assignments scope enclosed,
        Code.visited_assignmentsOfAll rest _ enclosed]

end

end Visited

section Declared

variable {names : List String}

-- The names that a scope takes from declarations are among some names.
def Scope.Among (names : List String) (scope : Scope) : Prop :=
  ∀ entry ∈ scope, entry.2 = .declared → entry.1 ∈ names

-- The names that are found to be declared are among some names.
def DeclaredAmong (names : List String) (findings : List Finding) : Prop :=
  ∀ name, Finding.declared name ∈ findings → name ∈ names

-- The names that are assigned where a declaration has declared them are among some names.
def AssignedAmong (names : List String) (assignments : List Assignment) : Prop :=
  ∀ assignment ∈ assignments, assignment.hidden = false → assignment.origin = .declared →
    assignment.name ∈ names

@[simp] theorem Scope.among_append (inner outer : Scope) :
    Scope.Among names (inner ++ outer) ↔ Scope.Among names inner ∧ Scope.Among names outer :=
  List.forall_mem_append

@[simp] theorem Scope.among_matches (patterns : List Pattern) :
    Scope.Among names (Pattern.matches patterns) := by
  intro entry hentry hdeclared
  obtain ⟨_, _, rfl⟩ := List.mem_map.mp hentry
  cases hdeclared

@[simp] theorem declaredAmong_append (earlier later : List Finding) :
    DeclaredAmong names (earlier ++ later) ↔
      DeclaredAmong names earlier ∧ DeclaredAmong names later := by
  simp [DeclaredAmong, or_imp, forall_and]

@[simp] theorem assignedAmong_append (earlier later : List Assignment) :
    AssignedAmong names (earlier ++ later) ↔
      AssignedAmong names earlier ∧ AssignedAmong names later :=
  List.forall_mem_append

@[simp] theorem assignedAmong_hide (assignments : List Assignment) :
    AssignedAmong names (assignments.map Assignment.hide) := by
  intro assignment hassignment hhidden
  obtain ⟨_, _, rfl⟩ := List.mem_map.mp hassignment
  cases hhidden

theorem Scope.Among.assigned {scope : Scope} (h : Scope.Among names scope) (code : Code) :
    AssignedAmong names (scope.assigned code) := by
  intro assignment hassignment _ hdeclared
  obtain ⟨name, _, rfl⟩ := List.mem_map.mp hassignment
  cases hlookup : scope.lookup name with
  | none =>
      rw [Scope.origin, hlookup] at hdeclared
      cases hdeclared
  | some origin =>
      rw [Scope.origin, hlookup] at hdeclared
      obtain ⟨_, _, hsplit, _⟩ := List.lookup_eq_some_iff.mp hlookup
      exact h (name, origin) (hsplit ▸ List.mem_append_right _ List.mem_cons_self) hdeclared

theorem Scope.Among.receiver {scope : Scope} (h : Scope.Among names scope) (receiver : Code)
    (called : String) :
    AssignedAmong names (if changesReceiver called then scope.assigned receiver else []) := by
  split
  · exact h.assigned receiver
  · exact nofun

theorem Pattern.among_declares {pattern : Pattern} (h : ∀ name ∈ pattern.names, name ∈ names) :
    Scope.Among names pattern.declares := by
  intro entry hentry hdeclared
  obtain ⟨name, _, rfl⟩ := List.mem_map.mp hentry
  simp only at hdeclared ⊢
  split at hdeclared
  · rename_i hname
    exact h name (List.contains_iff_mem.mp hname)
  · cases hdeclared

mutual

-- Whatever a form declares for what is after it is found.
theorem Code.among_brings (code : Code) {enclosed : Bool}
    (h : DeclaredAmong names (code.findings enclosed)) : Scope.Among names code.brings := by
  cases code with
  | declare pattern constants value otherwise =>
      refine Pattern.among_declares fun name hname => h name ?_
      simp [Code.findings, hname]
  | test pattern => exact Scope.among_matches [pattern]
  | parts inner => exact Code.among_bringsOfAll inner h
  | _ => exact nofun

theorem Code.among_bringsOfAll (codes : List Code) {enclosed : Bool}
    (h : DeclaredAmong names (Code.findingsOfAll enclosed codes)) :
    Scope.Among names (Code.bringsOfAll codes) := by
  cases codes with
  | nil => exact nofun
  | cons code rest =>
      rw [Code.findingsOfAll, declaredAmong_append] at h
      rw [Code.bringsOfAll, Scope.among_append]
      exact ⟨Code.among_bringsOfAll rest h.2, code.among_brings h.1⟩

end

mutual

-- What is assigned as a declared name is declared around the form or in it.
theorem Code.among_assignments (code : Code) {scope : Scope} {enclosed : Bool}
    (hscope : Scope.Among names scope) (h : DeclaredAmong names (code.findings enclosed)) :
    AssignedAmong names (code.assignments scope) := by
  cases code with
  | name | placeholder | again => exact nofun
  | path parts | tuple parts | parts parts | detached parts | block _ parts | endless _ parts =>
      exact Code.among_assignmentsOfAll parts hscope h
  | paren inner | field inner | dereference inner => exact inner.among_assignments hscope h
  | index base position =>
      simp only [Code.findings, Code.assignments, declaredAmong_append, assignedAmong_append] at h ⊢
      exact ⟨base.among_assignments hscope h.1, position.among_assignments hscope h.2⟩
  | assign left right =>
      simp only [Code.findings, Code.assignments, declaredAmong_append, assignedAmong_append,
        assignedAmong_hide, and_true] at h ⊢
      exact ⟨hscope.assigned left, right.among_assignments hscope h.2⟩
  | update left right =>
      simp only [Code.findings, Code.assignments, declaredAmong_append, assignedAmong_append] at h ⊢
      exact ⟨⟨hscope.assigned left, left.among_assignments hscope h.1.2⟩,
        right.among_assignments hscope h.2⟩
  | method receiver called arguments =>
      simp only [Code.findings, Code.assignments, declaredAmong_append, assignedAmong_append] at h ⊢
      exact ⟨⟨hscope.receiver receiver called, receiver.among_assignments hscope h.1.2⟩,
        Code.among_assignmentsOfAll arguments hscope h.2⟩
  | branch condition yes no =>
      simp only [Code.findings, Code.assignments, declaredAmong_append, assignedAmong_append] at h ⊢
      have hyes := (Scope.among_append _ _).mpr ⟨condition.among_brings h.1.1, hscope⟩
      exact ⟨⟨condition.among_assignments hscope h.1.1, Code.among_assignmentsOfAll yes hyes h.1.2⟩,
        Code.among_assignmentsOfAll no hscope h.2⟩
  | select value arms =>
      simp only [Code.findings, Code.assignments, declaredAmong_append, assignedAmong_append] at h ⊢
      exact ⟨value.among_assignments hscope h.1, Code.among_assignmentsOfAll arms hscope h.2⟩
  | arm pattern constants guard result =>
      simp only [Code.findings, Code.assignments, declaredAmong_append, assignedAmong_append] at h ⊢
      have hguard : Scope.Among names (Pattern.matches [pattern] ++ scope) := by simp [hscope]
      have hresult : Scope.Among names
          (Code.bringsOfAll guard ++ Pattern.matches [pattern] ++ scope) := by
        simp [hscope, Code.among_bringsOfAll guard h.1.2]
      exact ⟨⟨Code.among_assignmentsOfAll constants hscope h.1.1,
        Code.among_assignmentsOfAll guard hguard h.1.2⟩, result.among_assignments hresult h.2⟩
  | test _ constants value =>
      simp only [Code.findings, Code.assignments, declaredAmong_append, assignedAmong_append] at h ⊢
      exact ⟨Code.among_assignmentsOfAll constants hscope h.1, value.among_assignments hscope h.2⟩
  | declare _ constants value otherwise =>
      simp only [Code.findings, Code.assignments, declaredAmong_append, assignedAmong_append] at h ⊢
      exact ⟨⟨Code.among_assignmentsOfAll constants hscope h.1.1.2,
        Code.among_assignmentsOfAll value hscope h.1.2⟩,
        Code.among_assignmentsOfAll otherwise hscope h.2⟩
  | whileLoop _ condition body =>
      simp only [Code.findings, Code.assignments, declaredAmong_append, assignedAmong_append] at h ⊢
      have hbody := (Scope.among_append _ _).mpr ⟨condition.among_brings h.1, hscope⟩
      exact ⟨condition.among_assignments hscope h.1, Code.among_assignmentsOfAll body hbody h.2⟩
  | forLoop _ pattern constants range body =>
      simp only [Code.findings, Code.assignments, declaredAmong_append, assignedAmong_append] at h ⊢
      have hbody : Scope.Among names (Pattern.matches [pattern] ++ scope) := by simp [hscope]
      exact ⟨⟨Code.among_assignmentsOfAll constants hscope h.1.1,
        range.among_assignments hscope h.1.2⟩, Code.among_assignmentsOfAll body hbody h.2⟩
  | closure parameters constants body =>
      simp only [Code.findings, Code.assignments, declaredAmong_append, assignedAmong_append] at h ⊢
      have hbody : Scope.Among names (Pattern.matches parameters ++ scope) := by simp [hscope]
      exact ⟨Code.among_assignmentsOfAll constants hscope h.1, body.among_assignments hbody h.2⟩
  | function parameters constants body =>
      simp only [Code.findings, Code.assignments, declaredAmong_append, assignedAmong_append] at h ⊢
      exact ⟨Code.among_assignmentsOfAll constants (nofun) h.1,
        Code.among_assignmentsOfAll body (Scope.among_matches parameters) h.2⟩
  | leave _ value =>
      simp only [Code.findings, Code.assignments, declaredAmong_append] at h ⊢
      exact Code.among_assignmentsOfAll value hscope h.2

theorem Code.among_assignmentsOfAll (codes : List Code) {scope : Scope} {enclosed : Bool}
    (hscope : Scope.Among names scope)
    (h : DeclaredAmong names (Code.findingsOfAll enclosed codes)) :
    AssignedAmong names (Code.assignmentsOfAll scope codes) := by
  cases codes with
  | nil => exact nofun
  | cons code rest =>
      rw [Code.findingsOfAll, declaredAmong_append] at h
      rw [Code.assignmentsOfAll, assignedAmong_append]
      have hrest := (Scope.among_append _ _).mpr ⟨code.among_brings h.1, hscope⟩
      exact ⟨code.among_assignments hscope h.1, Code.among_assignmentsOfAll rest hrest h.2⟩

end

end Declared

section FirstUses

-- Takes up a name that has not been seen yet.
def takeUp (seen : List String) (name : String) : List String :=
  if seen.contains name then seen else seen ++ [name]

theorem mem_takeUp {seen : List String} {name other : String} :
    other ∈ takeUp seen name ↔ other ∈ seen ∨ other = name := by
  unfold takeUp
  split
  · rename_i hseen
    have hname := List.contains_iff_mem.mp hseen
    exact ⟨Or.inl, fun h => h.elim id fun hsame => hsame ▸ hname⟩
  · rw [List.mem_append, List.mem_singleton]

theorem filter_takeUp (keep : String → Bool) (seen : List String) (name : String) :
    (takeUp seen name).filter keep =
      if keep name then takeUp (seen.filter keep) name else seen.filter keep := by
  unfold takeUp
  by_cases hkeep : keep name = true <;> by_cases hseen : name ∈ seen <;> simp [hkeep, hseen]

theorem mem_firstUses {names : List String} {name : String} :
    name ∈ firstUses names ↔ name ∈ names := by
  have hfoldl : ∀ seen : List String,
      name ∈ names.foldl takeUp seen ↔ name ∈ seen ∨ name ∈ names := by
    induction names with
    | nil => simp
    | cons first names ih =>
        intro seen
        rw [List.foldl_cons, ih, mem_takeUp, List.mem_cons, or_assoc]
  exact (hfoldl []).trans (or_iff_right List.not_mem_nil)

-- What is left out makes no difference to the order of the others.
theorem filter_firstUses (keep : String → Bool) (names : List String) :
    (firstUses names).filter keep = firstUses (names.filter keep) := by
  have hfoldl : ∀ seen : List String, (names.foldl takeUp seen).filter keep =
      (names.filter keep).foldl takeUp (seen.filter keep) := by
    induction names with
    | nil => exact fun seen => rfl
    | cons first names ih =>
        intro seen
        rw [List.foldl_cons, ih, filter_takeUp, List.filter_cons]
        split <;> rfl
  exact hfoldl []

-- Names stand in the order in which they are used first.
theorem pairwise_firstUses (names : List String) :
    (firstUses names).Pairwise fun a b => names.idxOf a < names.idxOf b := by
  have hfoldl : ∀ (rest done seen : List String), names = done ++ rest →
      (∀ name, name ∈ seen ↔ name ∈ done) →
      seen.Pairwise (fun a b => names.idxOf a < names.idxOf b) →
      (rest.foldl takeUp seen).Pairwise fun a b => names.idxOf a < names.idxOf b := by
    intro rest
    induction rest with
    | nil => exact fun _ _ _ _ hpairwise => hpairwise
    | cons first rest ih =>
        intro done seen hnames hseen hpairwise
        refine ih (done ++ [first]) _ (by simp [hnames]) (fun name => ?_) ?_
        · rw [mem_takeUp, List.mem_append, List.mem_singleton, hseen]
        · unfold takeUp
          split
          · exact hpairwise
          · rename_i hnew
            -- a name that is taken up now does not occur earlier
            have hnew : first ∉ done := fun hdone =>
              hnew (List.contains_iff_mem.mpr ((hseen first).mpr hdone))
            refine List.pairwise_append.mpr ⟨hpairwise, List.pairwise_singleton _ _, ?_⟩
            intro earlier hearlier last hlast
            obtain rfl := List.mem_singleton.mp hlast
            rw [hnames, List.idxOf_append_of_mem ((hseen earlier).mp hearlier),
              List.idxOf_append_of_notMem hnew, List.idxOf_cons_self, Nat.add_zero]
            exact List.idxOf_lt_length_iff.mpr ((hseen earlier).mp hearlier)
  exact hfoldl names [] [] rfl (fun _ => Iff.rfl) List.Pairwise.nil

end FirstUses

-- The names of all declarations in a body.
def declaredNames (body : List Code) : List String :=
  (Code.findingsOfAll false body).filterMap Finding.declared?

theorem declaredAmong_declaredNames (body : List Code) :
    DeclaredAmong (declaredNames body) (Code.findingsOfAll false body) :=
  fun _ hname => List.mem_filterMap.mpr ⟨_, hname, rfl⟩

theorem assignedNames_eq_ok {body : List Code} {names : List String}
    (h : assignedNames body = .ok names) :
    names = (firstUses ((Code.findingsOfAll false body).filterMap Finding.assigned?)).filter
      fun name => !(declaredNames body).contains name := by
  simp only [assignedNames] at h
  split at h
  · exact (Except.ok.inj h).symm
  · cases h

-- The assignments of a body to what is outside of it.
def outerAssignments (body : List Code) : List Assignment :=
  (Code.assignmentsOfAll [] body).filter (·.origin = .outside)

-- A body whose names are told apart without regard to scopes.
structure Separate (body : List Code) : Prop where
  -- Nothing from outside is assigned inside the left side of a plain assignment.
  looked : ∀ assignment ∈ outerAssignments body, assignment.hidden = false
  -- What is assigned is bound by plain declarations, if it is bound in the body at all.
  unmatched : ∀ assignment ∈ Code.assignmentsOfAll [] body, assignment.hidden = false →
    assignment.origin ≠ .matched
  -- Nothing that is assigned outside is declared in the body as well.
  undeclared : ∀ assignment ∈ outerAssignments body, assignment.name ∉ declaredNames body

-- What is assigned outside is what is found to be assigned and not to be declared.
theorem Separate.outer_iff {body : List Code} (h : Separate body) {assignment : Assignment}
    (hassignment : assignment ∈ Code.assignmentsOfAll [] body) :
    assignment.origin = .outside ↔
      assignment.name ∉ declaredNames body ∧ assignment.hidden = false := by
  constructor
  · intro houtside
    have houter : assignment ∈ outerAssignments body :=
      List.mem_filter.mpr ⟨hassignment, decide_eq_true houtside⟩
    exact ⟨h.undeclared assignment houter, h.looked assignment houter⟩
  · rintro ⟨hundeclared, hvisited⟩
    have hknown : AssignedAmong (declaredNames body) (Code.assignmentsOfAll [] body) :=
      Code.among_assignmentsOfAll body nofun (declaredAmong_declaredNames body)
    cases horigin : assignment.origin with
    | outside => rfl
    | matched => exact absurd horigin (h.unmatched assignment hassignment hvisited)
    | declared => exact absurd (hknown assignment hassignment hvisited horigin) hundeclared

theorem Separate.names_eq {body : List Code} (h : Separate body) {names : List String}
    (hnames : assignedNames body = .ok names) :
    names = firstUses ((outerAssignments body).map Assignment.name) := by
  have houter : outerAssignments body = (Code.assignmentsOfAll [] body).filter fun assignment =>
      !(declaredNames body).contains assignment.name && !assignment.hidden := by
    refine List.filter_congr fun assignment hassignment => ?_
    rw [Bool.eq_iff_iff, decide_eq_true_iff, h.outer_iff hassignment]
    simp
  rw [assignedNames_eq_ok hnames, filter_firstUses, ← Code.visited_assignmentsOfAll body [] false,
    visited, List.filter_map, List.filter_filter, houter]
  rfl

-- The names of a body are those from outside that it assigns, each of them once and in the order of
-- its first assignment.
theorem outer_names_found {body : List Code} (h : Separate body) {names : List String}
    (hnames : assignedNames body = .ok names) :
    (∀ name, name ∈ names ↔ ∃ assignment ∈ outerAssignments body, assignment.name = name) ∧
      names.Nodup ∧
      names.Pairwise fun a b => ((outerAssignments body).map Assignment.name).idxOf a <
        ((outerAssignments body).map Assignment.name).idxOf b := by
  obtain rfl := h.names_eq hnames
  have hpairwise := pairwise_firstUses ((outerAssignments body).map Assignment.name)
  refine ⟨fun name => ?_, hpairwise.imp fun hlt hsame => ?_, hpairwise⟩
  · rw [mem_firstUses, List.mem_map]
  · exact Nat.lt_irrefl _ (hsame ▸ hlt)

-- A variable of the body beside the names that it assigns, one of them in a position and again
-- later.
def counting : List Code :=
  [.declare (.bind "t" []) [] [.nothing] [],
    .update (.index (.name "x") (.block none [.update (.name "y") .nothing])) (.name "t"),
    .update (.name "t") (.name "x"), .method (.paren (.name "z")) "set" [.name "t"],
    .assign (.name "x") (.name "z")]

theorem counted_names_found :
    ∃ names, assignedNames counting = .ok names ∧ Separate counting ∧
      (∀ name, name ∈ names ↔ ∃ assignment ∈ outerAssignments counting, assignment.name = name) ∧
      names = ["x", "y", "z"] := by
  have hseparate : Separate counting := ⟨by decide, by decide, by decide⟩
  have hnames : assignedNames counting = .ok ["x", "y", "z"] := rfl
  exact ⟨_, hnames, hseparate, (outer_names_found hseparate hnames).1, rfl⟩

-- An assignment in a position on the left of another one.
def inPosition (assign : Code → Code → Code) : List Code :=
  [assign (.index (.name "x") (.block none [.assign (.name "y") .nothing])) .nothing]

-- On the left of a plain assignment it is missed, and on the left of one with an operation it is
-- not. A name that an inner block declares is lost, and what a loop binds is taken for a name from
-- outside.
theorem names_confused :
    ((outerAssignments (inPosition .assign)).map Assignment.name = ["x", "y"] ∧
        assignedNames (inPosition .assign) = .ok ["x"]) ∧
      ((outerAssignments (inPosition .update)).map Assignment.name = ["x", "y"] ∧
        assignedNames (inPosition .update) = .ok ["x", "y"]) ∧
      (∃ body : List Code, (outerAssignments body).map Assignment.name = ["x"] ∧
        assignedNames body = .ok []) ∧
      ∃ body : List Code, outerAssignments body = [] ∧ assignedNames body = .ok ["x"] :=
  ⟨⟨rfl, rfl⟩, ⟨rfl, rfl⟩,
    ⟨[.assign (.name "x") .nothing, .block none [.declare (.bind "x" []) [] [] []]], rfl, rfl⟩,
    ⟨[.forLoop none (.bind "x" []) [] (.name "r") [.assign (.name "x") .nothing]], rfl, rfl⟩⟩

end MapAlgebra.Source
