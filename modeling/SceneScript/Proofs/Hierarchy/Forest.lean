import Mathlib.Data.List.Nodup
import Mathlib.Tactic.Common

/-!
# Forests of linked nodes

Nodes that know their parent and their children make up a forest if the two agree, no children are
repeated, and the way up from every node ends. Adding a node on its own keeps a forest
(`Links.IsForest.create`), and so does attaching a parentless node to one that is not below it
(`Links.IsForest.attach`).
-/

namespace SceneScript

structure Link where
  parent : Option Nat
  children : List Nat

abbrev Links := Nat → Option Link

namespace Links

def Has (links : Links) (ref : Nat) : Prop :=
  (links ref).isSome

def parent? (links : Links) (ref : Nat) : Option Nat :=
  (links ref).bind Link.parent

def children (links : Links) (ref : Nat) : List Nat :=
  ((links ref).map Link.children).getD []

inductive Ascent (links : Links) : Nat → List Nat → Prop
  | root {ref : Nat} : links.Has ref → links.parent? ref = none → Ascent links ref [ref]
  | step {ref parent : Nat} {path : List Nat} : links.parent? ref = some parent →
      Ascent links parent path → Ascent links ref (ref :: path)

variable {links : Links} {ref x y z parent child levels : Nat} {path path' : List Nat}

theorem has_of_parent? (found : links.parent? ref = some parent) : links.Has ref := by
  unfold parent? at found
  cases is : links ref with
  | none =>
    rw [is] at found
    cases found
  | some link => rw [Has, is, Option.isSome_some]

/-! ## The way up -/

namespace Ascent

theorem head? (ascent : links.Ascent ref path) : path.head? = some ref := by
  cases ascent <;> rfl

theorem mem (ascent : links.Ascent ref path) : ref ∈ path :=
  List.mem_of_mem_head? ascent.head?

theorem unique (ascent : links.Ascent ref path) (other : links.Ascent ref path') :
    path = path' := by
  induction ascent generalizing path' with
  | root _ free =>
    cases other with
    | root => rfl
    | step found => exact absurd (free.symm.trans found) nofun
  | step found _ ih =>
    cases other with
    | root _ free => exact absurd (free.symm.trans found) nofun
    | step found' rest =>
      cases found.symm.trans found'
      rw [ih rest]

theorem suffix (ascent : links.Ascent x path) (mem : z ∈ path) :
    ∃ rest, links.Ascent z rest ∧ rest <:+ path := by
  induction ascent with
  | @root x has free =>
    obtain rfl := List.mem_singleton.1 mem
    exact ⟨[z], .root has free, List.suffix_refl _⟩
  | @step x parent path found ascent ih =>
    rcases List.mem_cons.1 mem with rfl | above
    · exact ⟨z :: path, .step found ascent, List.suffix_refl _⟩
    · obtain ⟨rest, ascent', isSuffix⟩ := ih above
      exact ⟨rest, ascent', isSuffix.trans (List.suffix_cons x path)⟩

theorem suffix_of_mem (ascent : links.Ascent x path) (mem : z ∈ path)
    (ofZ : links.Ascent z path') : path' <:+ path := by
  obtain ⟨rest, ascent', isSuffix⟩ := ascent.suffix mem
  rwa [ofZ.unique ascent']

theorem has (ascent : links.Ascent x path) : links.Has x := by
  cases ascent with
  | root has _ => exact has
  | step found _ => exact has_of_parent? found

theorem nodup (ascent : links.Ascent ref path) : path.Nodup := by
  induction ascent with
  | root => exact List.nodup_singleton _
  | @step ref parent path found ascent ih =>
    refine List.nodup_cons.2 ⟨fun again => ?_, ih⟩
    -- The way up from the node would be a part of the way up from its parent.
    have longer := (ascent.suffix_of_mem again (.step found ascent)).length_le
    exact Nat.not_succ_le_self _ longer

theorem eq_of_length (ascent : links.Ascent x path) {ys zs : List Nat} (ofY : y ∈ path)
    (ofZ : z ∈ path) (ascentY : links.Ascent y ys) (ascentZ : links.Ascent z zs)
    (same : ys.length = zs.length) : y = z := by
  have suffixY := ascent.suffix_of_mem ofY ascentY
  have suffixZ := ascent.suffix_of_mem ofZ ascentZ
  have nested := List.suffix_of_suffix_length_le suffixY suffixZ (Nat.le_of_eq same)
  obtain rfl := nested.eq_of_length same
  exact Option.some.inj (ascentY.head?.symm.trans ascentZ.head?)

theorem exists_root (ascent : links.Ascent x path) :
    ∃ z ∈ path, links.Has z ∧ links.parent? z = none := by
  induction ascent with
  | @root x has free => exact ⟨x, List.mem_cons_self, has, free⟩
  | @step x _ _ _ _ ih =>
    obtain ⟨z, on, has, free⟩ := ih
    exact ⟨z, List.mem_cons_of_mem x on, has, free⟩

theorem through (ascent : links.Ascent x path) (mem : z ∈ path) :
    x = z ∨ ∃ y ∈ path, links.parent? y = some z := by
  induction ascent with
  | root => exact .inl (List.mem_singleton.1 mem).symm
  | @step x parent path found ascent ih =>
    rcases List.mem_cons.1 mem with rfl | above
    · exact .inl rfl
    · rcases ih above with rfl | ⟨y, on, found'⟩
      · exact .inr ⟨x, List.mem_cons_self, found⟩
      · exact .inr ⟨y, List.mem_cons_of_mem x on, found'⟩

theorem congr {links' : Links} (ascent : links.Ascent x path)
    (same : ∀ z ∈ path, (links' z).map Link.parent = (links z).map Link.parent) :
    links'.Ascent x path := by
  have transfer {z : Nat} (eq : (links' z).map Link.parent = (links z).map Link.parent) :
      links'.parent? z = links.parent? z ∧ (links.Has z → links'.Has z) := by
    unfold parent? Has
    cases is : links z <;> cases is' : links' z <;> simp_all
  induction ascent with
  | root has free =>
    obtain ⟨parents, hasToo⟩ := transfer (same _ List.mem_cons_self)
    exact .root (hasToo has) (parents.trans free)
  | @step x parent path found ascent ih =>
    obtain ⟨parents, -⟩ := transfer (same x List.mem_cons_self)
    exact .step (parents.trans found) (ih fun z on => same z (List.mem_cons_of_mem x on))

end Ascent

/-! ## Forests -/

/-- The links of a forest whose trees have at most so many levels. -/
structure IsForest (links : Links) (levels : Nat) : Prop where
  agree : ∀ parent child, child ∈ links.children parent ↔ links.parent? child = some parent
  once : ∀ parent, (links.children parent).Nodup
  rooted : ∀ ref, links.Has ref → ∃ path, links.Ascent ref path ∧ path.length ≤ levels

theorem isForest_empty (levels : Nat) : IsForest (fun _ => none) levels where
  agree _ _ := ⟨nofun, nofun⟩
  once _ := List.nodup_nil
  rooted _ := nofun

def create (links : Links) (ref : Nat) : Links := fun x =>
  if x = ref then some ⟨none, []⟩ else links x

theorem has_create {new : Nat} : (links.create new).Has ref ↔ ref = new ∨ links.Has ref := by
  unfold Has create
  split <;> simp [*]

theorem children_create {new : Nat} (fresh : links new = none) :
    (links.create new).children ref = links.children ref := by
  unfold children create
  split
  · next same => rw [same, fresh]; rfl
  · rfl

def attach (links : Links) (parent child : Nat) : Links := fun x =>
  (links x).map fun link =>
    ⟨if x = child then some parent else link.parent,
      if x = parent then link.children ++ [child] else link.children⟩

namespace IsForest

theorem create (forest : links.IsForest levels) (fresh : links ref = none) (room : 0 < levels) :
    (links.create ref).IsForest levels where
  agree parent child := by
    have noChildren : links.children ref = [] := by rw [children, fresh]; rfl
    have noParent : links.parent? ref = none := by rw [parent?, fresh]; rfl
    have agree := forest.agree parent child
    have unlinked := forest.agree ref child
    rw [noChildren] at unlinked
    unfold children parent? Links.create at *
    split <;> split <;> simp_all
  once parent := by
    have once := forest.once parent
    unfold children Links.create at *
    split
    · exact List.nodup_nil
    · exact once
  rooted x has := by
    by_cases new : x = ref
    · subst new
      refine ⟨[x], .root ?_ ?_, room⟩
      · simp [Has, Links.create]
      · simp [parent?, Links.create]
    · have old : links.Has x := by simpa [Has, Links.create, new] using has
      obtain ⟨path, ascent, short⟩ := forest.rooted x old
      refine ⟨path, ascent.congr fun z on => ?_, short⟩
      obtain ⟨rest, ascent', -⟩ := ascent.suffix on
      -- A node on an old path has links, and the new one had none.
      have other : z ≠ ref := by
        rintro rfl
        have has := ascent'.has
        rw [Has, fresh] at has
        cases has
      rw [Links.create, if_neg other]

theorem short (forest : links.IsForest levels) (ascent : links.Ascent ref path) :
    path.length ≤ levels := by
  obtain ⟨path', ascent', short⟩ := forest.rooted ref ascent.has
  rwa [ascent.unique ascent']

theorem ascent_child (forest : links.IsForest levels) (ascent : links.Ascent ref path)
    (mem : child ∈ links.children ref) : links.Ascent child (child :: path) :=
  .step ((forest.agree ref child).1 mem) ascent

/-- What holds of a node if it holds of all its children holds of all nodes. -/
theorem descend (forest : links.IsForest levels) {P : Nat → List Nat → Prop}
    (step : ∀ ref path, links.Ascent ref path → (∀ child ∈ links.children ref,
      P child (child :: path)) → P ref path)
    (ascent : links.Ascent ref path) : P ref path := by
  -- Every child leaves one level less for what is below it.
  generalize left : levels - path.length = rest
  induction rest using Nat.strongRecOn generalizing ref path with
  | ind rest ih =>
    refine step ref path ascent fun child mem => ?_
    have below := forest.ascent_child ascent mem
    have short := forest.short below
    rw [List.length_cons] at short
    exact ih (levels - (child :: path).length) (by rw [List.length_cons]; omega) below rfl

theorem nodup_flatMap (forest : links.IsForest levels) {refs : List Nat} (nodup : refs.Nodup) :
    (refs.flatMap links.children).Nodup := by
  refine List.nodup_flatMap.2 ⟨fun ref _ => forest.once ref, nodup.imp fun {p q} other => ?_⟩
  intro child ofP ofQ
  have found := (forest.agree p child).1 ofP
  exact other (Option.some.inj (found.symm.trans ((forest.agree q child).1 ofQ)))

end IsForest

/-! ## Attaching -/

section

variable (hasParent : links.Has parent) (hasChild : links.Has child)

theorem has_attach : (links.attach parent child).Has x ↔ links.Has x := by
  simp [Has, attach]

include hasChild in
theorem parent?_attach : (links.attach parent child).parent? x =
    if x = child then some parent else links.parent? x := by
  unfold parent? attach
  cases is : links x with
  | none =>
    have other : x ≠ child := by
      rintro rfl
      rw [Has, is] at hasChild
      cases hasChild
    rw [if_neg other]
    rfl
  | some link => by_cases same : x = child <;> simp [same]

include hasParent in
theorem children_attach : (links.attach parent child).children x =
    if x = parent then links.children x ++ [child] else links.children x := by
  unfold children attach
  cases is : links x with
  | none =>
    have other : x ≠ parent := by
      rintro rfl
      rw [Has, is] at hasParent
      cases hasParent
    rw [if_neg other]
    rfl
  | some link => by_cases same : x = parent <;> simp [same]

end

theorem Ascent.attach_apart (ascent : links.Ascent x path) (apart : child ∉ path) :
    (links.attach parent child).Ascent x path := by
  refine ascent.congr fun z on => ?_
  have other : z ≠ child := fun is => apart (is ▸ on)
  cases is : links z <;> simp [Links.attach, is, other]

theorem Ascent.attach_through (ascent : links.Ascent x path) (through : child ∈ path)
    (free : links.parent? child = none) (above : links.Ascent parent path')
    (apart : child ∉ path') : (links.attach parent child).Ascent x (path ++ path') := by
  induction ascent with
  | root has =>
    obtain rfl := List.mem_singleton.1 through
    exact .step (by rw [parent?_attach has, if_pos rfl]) (above.attach_apart apart)
  | @step x up xs found ascent ih =>
    have other : x ≠ child := by
      rintro rfl
      exact absurd (free.symm.trans found) nofun
    have on := (List.mem_cons.1 through).resolve_left (Ne.symm other)
    obtain ⟨_, ofChild, -⟩ := ascent.suffix on
    exact .step (by rw [parent?_attach ofChild.has, if_neg other, found]) (ih on)

theorem IsForest.attach (forest : links.IsForest levels) (free : links.parent? child = none)
    (has : links.Has child) (above : links.Ascent parent path) (apart : child ∉ path)
    (room : ∀ x xs, links.Ascent x xs → child ∈ xs → xs.length + path.length ≤ levels) :
    (links.attach parent child).IsForest levels where
  agree p c := by
    have agree := forest.agree p c
    rw [children_attach above.has, parent?_attach has]
    by_cases isChild : c = child
    · subst isChild
      rw [free] at agree
      by_cases isParent : p = parent
      · simp [isParent]
      · simp [isParent, Ne.symm isParent, agree]
    · by_cases isParent : p = parent
      · subst isParent
        simp [isChild, agree]
      · simp [isParent, isChild, agree]
  once p := by
    rw [children_attach above.has]
    split
    · refine List.nodup_append.2 ⟨forest.once p, List.nodup_singleton _, fun x mem y isNew => ?_⟩
      rintro rfl
      obtain rfl := List.mem_singleton.1 isNew
      exact absurd (free.symm.trans ((forest.agree p x).1 mem)) nofun
    · exact forest.once p
  rooted x hasX := by
    obtain ⟨xs, ascent, short⟩ := forest.rooted x (has_attach.1 hasX)
    by_cases through : child ∈ xs
    · refine ⟨xs ++ path, ascent.attach_through through free above apart, ?_⟩
      rw [List.length_append]
      exact room x xs ascent through
    · exact ⟨xs, ascent.attach_apart through, short⟩

end Links

end SceneScript
