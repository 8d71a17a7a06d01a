import Mathlib.Data.List.Nodup

/-!
# A pool of reusable objects

Objects are addresses with contents. A pool hands out an object that was put back, or a new one, and the
holder of an object writes its contents. An object that nobody put back while holding it keeps what its
holder wrote.
-/

namespace Espx.Foundation

open List

/-- The contents of the objects, the objects that were put back, and the number of objects made. -/
structure Pool (C : Type*) where
  contents : ℕ → C
  free : List ℕ
  allocated : ℕ

namespace Pool

variable {C : Type*} {p : Pool C} {objs others : List ℕ} {o : ℕ} {contents : List C} {p' : Pool C}

/-- A new object. -/
def fresh (p : Pool C) : ℕ × Pool C := (p.allocated, { p with allocated := p.allocated + 1 })

/-- An object that was put back, where the choice names one, or a new one. -/
def get (p : Pool C) (choice : Option ℕ) : ℕ × Pool C :=
  match choice with
  | none => p.fresh
  | some o => if o ∈ p.free then (o, { p with free := p.free.erase o }) else p.fresh

/-- An object is taken and its contents are written. -/
def fill (p : Pool C) (choice : Option ℕ) (c : C) : ℕ × Pool C :=
  let (o, p) := p.get choice
  (o, { p with contents := Function.update p.contents o c })

/-- Objects are taken one after the other, each with its contents. -/
def fillAll : Pool C → List (C × Option ℕ) → List ℕ × Pool C
  | p, [] => ([], p)
  | p, (c, choice) :: rest =>
    let (o, p) := p.fill choice c
    let (objs, p) := p.fillAll rest
    (o :: objs, p)

/-- Objects are put back. -/
def putAll (p : Pool C) (objs : List ℕ) : Pool C := { p with free := p.free ++ objs }

/-- No object was put back twice, and every free object was made. -/
structure Sound (p : Pool C) : Prop where
  nodup : p.free.Nodup
  bounded : ∀ o ∈ p.free, o < p.allocated

/-- Distinct objects that were made and are not free. -/
structure Owned (p : Pool C) (objs : List ℕ) : Prop where
  nodup : objs.Nodup
  held : ∀ o ∈ objs, o < p.allocated ∧ o ∉ p.free

/-- What taking objects does: they are distinct and not free, they have their contents, and objects that
were held before keep theirs. -/
structure Filled (p : Pool C) (contents : List C) (objs : List ℕ) (p' : Pool C) : Prop where
  sound : p'.Sound
  owned : p'.Owned objs
  written : objs.map p'.contents = contents
  free_subset : p'.free ⊆ p.free
  allocated_le : p.allocated ≤ p'.allocated
  kept : ∀ o, o < p.allocated → o ∉ p.free → p'.contents o = p.contents o ∧ o ∉ objs

/-- One object is taken. -/
theorem Sound.filled_fill (hp : p.Sound) (choice : Option ℕ) (c : C) :
    Filled p [c] [(p.fill choice c).1] (p.fill choice c).2 := by
  have hnew : Filled p [c] [p.allocated]
      { p with allocated := p.allocated + 1, contents := Function.update p.contents p.allocated c } :=
    { sound := ⟨hp.nodup, fun o ho => Nat.lt_succ_of_lt (hp.bounded o ho)⟩
      owned := by
        refine ⟨nodup_singleton _, fun o ho => ?_⟩
        rw [mem_singleton.mp ho]
        exact ⟨Nat.lt_succ_self _, fun hfree => Nat.lt_irrefl _ (hp.bounded _ hfree)⟩
      written := by simp
      free_subset := fun _ h => h
      allocated_le := Nat.le_succ _
      kept := by
        intro o hlt _
        have hne : o ≠ p.allocated := Nat.ne_of_lt hlt
        exact ⟨Function.update_of_ne hne c p.contents, by simpa using hne⟩ }
  cases choice with
  | none => exact hnew
  | some o =>
    by_cases ho : o ∈ p.free
    · simp only [fill, get, if_pos ho]
      exact
        { sound := ⟨hp.nodup.erase o, fun x hx => hp.bounded x (mem_of_mem_erase hx)⟩
          owned := by
            refine ⟨nodup_singleton _, fun x hx => ?_⟩
            rw [mem_singleton.mp hx]
            exact ⟨hp.bounded o ho, hp.nodup.not_mem_erase⟩
          written := by simp
          free_subset := fun _ h => mem_of_mem_erase h
          allocated_le := Nat.le_refl _
          kept := by
            intro x _ hx
            have hne : x ≠ o := fun h => hx (h ▸ ho)
            exact ⟨Function.update_of_ne hne c p.contents, by simpa using hne⟩ }
    · simp only [fill, get, if_neg ho]
      exact hnew

/-- Taking objects one after the other. -/
theorem Sound.filled (hp : p.Sound) (items : List (C × Option ℕ)) :
    Filled p (items.map Prod.fst) (p.fillAll items).1 (p.fillAll items).2 := by
  induction items generalizing p with
  | nil =>
    exact ⟨hp, ⟨nodup_nil, fun o ho => absurd ho not_mem_nil⟩, rfl, fun _ h => h,
      Nat.le_refl _, fun o _ _ => ⟨rfl, not_mem_nil⟩⟩
  | cons item rest ih =>
    obtain ⟨c, choice⟩ := item
    have hfirst := hp.filled_fill choice c
    have hrest := ih hfirst.sound
    simp only [fillAll]
    set o := (p.fill choice c).1
    set q := (p.fill choice c).2
    have hheld := hfirst.owned.held o (mem_singleton_self o)
    have hkept := hrest.kept o hheld.1 hheld.2
    have hcont : q.contents o = c := by simpa using hfirst.written
    exact
      { sound := hrest.sound
        owned := by
          refine ⟨nodup_cons.mpr ⟨hkept.2, hrest.owned.nodup⟩, fun x hx => ?_⟩
          rcases mem_cons.mp hx with rfl | hx
          · exact ⟨Nat.lt_of_lt_of_le hheld.1 hrest.allocated_le,
              fun hfree => hheld.2 (hrest.free_subset hfree)⟩
          · exact hrest.owned.held x hx
        written := by rw [map_cons, hrest.written, hkept.1, hcont, map_cons]
        free_subset := fun _ h => hfirst.free_subset (hrest.free_subset h)
        allocated_le := Nat.le_trans hfirst.allocated_le hrest.allocated_le
        kept := by
          intro x hlt hfree
          have hx := hfirst.kept x hlt hfree
          have hx' := hrest.kept x (Nat.lt_of_lt_of_le hlt hfirst.allocated_le)
            (fun h => hfree (hfirst.free_subset h))
          refine ⟨hx'.1.trans hx.1, fun hmem => ?_⟩
          rcases mem_cons.mp hmem with rfl | hmem
          · exact hx.2 (mem_singleton_self _)
          · exact hx'.2 hmem }

section

variable (h : Filled p contents objs p') (hothers : p.Owned others)
include h hothers

/-- Objects that were held stay held while others are taken. -/
theorem Filled.owned_of_owned : p'.Owned others :=
  ⟨hothers.nodup, fun o ho =>
    ⟨Nat.lt_of_lt_of_le (hothers.held o ho).1 h.allocated_le,
      fun hfree => (hothers.held o ho).2 (h.free_subset hfree)⟩⟩

/-- Objects that were held are not among those taken. -/
theorem Filled.disjoint : others.Disjoint objs :=
  fun o ho => (h.kept o (hothers.held o ho).1 (hothers.held o ho).2).2

/-- Objects that were held keep their contents while others are taken. -/
theorem Filled.map_contents : others.map p'.contents = others.map p.contents :=
  map_congr_left fun o ho => (h.kept o (hothers.held o ho).1 (hothers.held o ho).2).1

end

/-- Objects that are held may be put back. -/
theorem Sound.putAll (hp : p.Sound) (hobjs : p.Owned objs) : (p.putAll objs).Sound := by
  constructor
  · exact hp.nodup.append hobjs.nodup fun o hfree ho => (hobjs.held o ho).2 hfree
  · intro o ho
    rcases mem_append.mp ho with ho | ho
    · exact hp.bounded o ho
    · exact (hobjs.held o ho).1

/-- Other objects stay held. -/
theorem Owned.putAll (hothers : p.Owned others) (hdisj : others.Disjoint objs) :
    (p.putAll objs).Owned others := by
  refine ⟨hothers.nodup, fun o ho => ⟨(hothers.held o ho).1, fun hfree => ?_⟩⟩
  rcases mem_append.mp hfree with hfree | hfree
  · exact (hothers.held o ho).2 hfree
  · exact hdisj ho hfree

/-- Some of the objects that are held. -/
theorem Owned.sublist (hothers : p.Owned others) (hsub : objs.Sublist others) : p.Owned objs :=
  ⟨hothers.nodup.sublist hsub, fun o ho => hothers.held o (hsub.subset ho)⟩

/-- Distinct objects that are held are held together. -/
theorem Owned.append (hothers : p.Owned others) (hobjs : p.Owned objs)
    (hdisj : others.Disjoint objs) : p.Owned (others ++ objs) := by
  refine ⟨hothers.nodup.append hobjs.nodup hdisj, fun o ho => ?_⟩
  rcases mem_append.mp ho with ho | ho
  · exact hothers.held o ho
  · exact hobjs.held o ho

/-- The pool after some use that leaves alone what others hold. -/
structure Keeps (p p' : Pool C) : Prop where
  sound : p'.Sound
  owned : ∀ others, p.Owned others → p'.Owned others
  contents : ∀ others, p.Owned others → others.map p'.contents = others.map p.contents

/-- Nothing happened. -/
theorem Sound.keeps (hp : p.Sound) : Keeps p p := ⟨hp, fun _ h => h, fun _ _ => rfl⟩

/-- One use after the other. -/
theorem Keeps.trans {p' p'' : Pool C} (h : Keeps p p') (h' : Keeps p' p'') : Keeps p p'' :=
  ⟨h'.sound, fun others ho => h'.owned others (h.owned others ho),
    fun others ho => (h'.contents others (h.owned others ho)).trans (h.contents others ho)⟩

/-- Objects are taken, used and put back, in some order. -/
theorem Filled.keeps_putAll {back : List ℕ} (h : Filled p contents objs p') (hback : back.Perm objs) :
    Keeps p (p'.putAll back) := by
  have howned : p'.Owned back :=
    ⟨hback.nodup_iff.mpr h.owned.nodup, fun o ho => h.owned.held o (hback.subset ho)⟩
  refine ⟨h.sound.putAll howned, fun _ ho => ?_, fun _ ho => h.map_contents ho⟩
  exact (h.owned_of_owned ho).putAll fun o hmem hb => h.disjoint ho hmem (hback.subset hb)

/-- Nothing is put back. -/
@[simp] theorem putAll_nil (p : Pool C) : p.putAll [] = p := by
  rw [putAll, append_nil]

/-- Objects are put back one part after the other. -/
theorem putAll_putAll (p : Pool C) (objs others : List ℕ) :
    (p.putAll objs).putAll others = p.putAll (objs ++ others) := by
  simp only [putAll, append_assoc]

end Pool

end Espx.Foundation
