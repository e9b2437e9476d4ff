import NetImport.Proofs.InPlace.Routine

/-!
# Routines that work on one block of a buffer

A loop over a buffer moves through it block by block, and a nested loop moves through
each block in the same way.  What a routine makes of its block and that it leaves the rest
alone is one property, and a loop has it when the body has it at the block of each round.
-/

namespace NetImport
namespace InPlace

variable {α β : Type}

/-- Where the block `old` begins at `start`, the routine puts the block of the outcome in
its place, or stops as the outcome says. -/
def Rewrites (routine : Routine (Array α) Unit) (start : Nat) (old : List α)
    (outcome : Except Stop (List α)) : Prop :=
  ∀ front back : List α, front.length = start →
    match outcome with
    | .ok new =>
        routine (front ++ old ++ back).toArray = .ok () (front ++ new ++ back).toArray
    | .error stop => ∃ left, routine (front ++ old ++ back).toArray = .error stop left

/-- The block of the outcome does not depend on what the block of this width held. -/
def Fills (routine : Routine (Array α) Unit) (start width : Nat)
    (outcome : Except Stop (List α)) : Prop :=
  ∀ old : List α, old.length = width → Rewrites routine start old outcome

namespace Rewrites

variable {routine next : Routine (Array α) Unit} {start : Nat} {old mid new : List α}
  {outcome : Except Stop (List α)}

theorem pure : Rewrites (pure () : Routine (Array α) Unit) start old (.ok old) :=
  fun _ _ _ => rfl

theorem bind (hfirst : Rewrites routine start old (.ok mid))
    (hnext : Rewrites next start mid outcome) :
    Rewrites (routine >>= fun _ => next) start old outcome := by
  intro front back hfront
  have hdone := hfirst front back hfront
  have hrest := hnext front back hfront
  rw [bind_apply_of_ok hdone]
  exact hrest

theorem read {value : Except Stop β} {rest : β → Routine (Array α) Unit}
    {outcomeOf : β → Except Stop (List α)}
    (hrest : ∀ b, value = .ok b → Rewrites (rest b) start old (outcomeOf b)) :
    Rewrites ((liftM value : Routine (Array α) β) >>= rest) start old (value >>= outcomeOf) := by
  intro front back hfront
  cases hvalue : value with
  | error stop => exact ⟨_, rfl⟩
  | ok b => exact hrest b hvalue front back hfront

theorem read_ok {value : Except Stop β} {b : β} {rest : β → Routine (Array α) Unit}
    (hvalue : value = .ok b) (hrest : Rewrites (rest b) start old outcome) :
    Rewrites ((liftM value : Routine (Array α) β) >>= rest) start old outcome := by
  subst hvalue
  exact hrest

/-- A routine that rewrites a part of a block keeps what stands before and after it. -/
theorem within {pre post : List α} (hpart : Rewrites routine (start + pre.length) old (.ok new)) :
    Rewrites routine start (pre ++ old ++ post) (.ok (pre ++ new ++ post)) := by
  intro front back hfront
  have hdone := hpart (front ++ pre) (post ++ back) (by rw [List.length_append, hfront])
  simpa only [List.append_assoc] using hdone

theorem run (hwhole : Rewrites routine 0 old (.ok new)) :
    routine old.toArray = .ok () new.toArray := by
  have hdone := hwhole [] [] rfl
  simpa only [List.nil_append, List.append_nil] using hdone

end Rewrites

theorem rewrites_store (start : Nat) (old new : α) :
    Rewrites (store start new) start [old] (.ok [new]) := by
  rintro front back rfl
  have hposition : front.length < (front ++ [old] ++ back).toArray.size := by simp
  change store _ _ _ = _
  rw [store, dif_pos hposition]
  congr 1
  simp

theorem rewrites_update (start : Nat) (f : α → α) (old : α) :
    Rewrites (update start f) start [old] (.ok [f old]) := by
  intro front back hfront
  have hload : load (front ++ [old] ++ back).toArray start = .ok old := by
    apply load_eq_ok
    simp [← hfront]
  change update _ _ _ = _
  rw [update, get_bind_apply, hload, read_ok_bind_apply]
  exact rewrites_store start old (f old) front back hfront

theorem rewrites_overwrite {start stop : Nat} {old : List α} {values : Array α}
    (hstop : stop = start + old.length) (hvalues : values.size = old.length) :
    Rewrites (overwrite start stop values) start old (.ok values.toList) := by
  rintro front back rfl
  subst hstop
  have hfits : front.length ≤ front.length + old.length ∧
      front.length + old.length ≤ (front ++ old ++ back).toArray.size ∧
      values.size = front.length + old.length - front.length := by
    simp [hvalues]
  change overwrite _ _ _ _ = _
  rw [overwrite, if_pos hfits]
  have hback : front.length + (old.length + back.length) - (front.length + old.length) =
      back.length := by
    omega
  congr 1
  apply Array.toList_inj.mp
  simp [List.drop_append, hback, List.drop_eq_nil_of_le]

/-! ## Loops -/

theorem forM_range_succ (count : Nat) (body : Nat → Routine (Array α) Unit) :
    (List.range (count + 1)).forM body =
      ((List.range count).forM body >>= fun _ => body count) := by
  simp only [List.forM_eq_forM, List.range_succ, List.forM_append, List.forM_cons,
    List.forM_nil, bind_pure_unit]

theorem length_flatten_of_mapM_range {count width : Nat} {new : Nat → Except Stop (List α)}
    (hnew : ∀ i < count, ∀ block, new i = .ok block → block.length = width)
    {blocks : List (List α)} (hblocks : (List.range count).mapM new = .ok blocks) :
    blocks.flatten.length = count * width := by
  have hall : ∀ block ∈ blocks, block.length = width := by
    intro block hblock
    obtain ⟨index, hindex⟩ := List.mem_iff_getElem?.mp hblock
    obtain ⟨i, hi, hmade⟩ := getElem?_of_mapM_eq_ok hblocks hindex
    exact hnew i (List.mem_range.mp (List.mem_of_getElem? hi)) block hmade
  have hlengths : blocks.map List.length = List.replicate count width := by
    rw [List.eq_replicate_iff, List.length_map, length_of_mapM_eq_ok hblocks, List.length_range]
    refine ⟨rfl, ?_⟩
    simpa using hall
  rw [List.length_flatten, hlengths, List.sum_replicate_nat]

/-- A loop rewrites the blocks of its rounds, one after the other. -/
theorem Rewrites.forM_range {count width start : Nat} {body : Nat → Routine (Array α) Unit}
    {old : Nat → List α} {new : Nat → Except Stop (List α)}
    (hold : ∀ i < count, (old i).length = width)
    (hnew : ∀ i < count, ∀ block, new i = .ok block → block.length = width)
    (hbody : ∀ i < count, Rewrites (body i) (start + i * width) (old i) (new i)) :
    Rewrites ((List.range count).forM body) start ((List.range count).flatMap old)
      (List.flatten <$> (List.range count).mapM new) := by
  induction count with
  | zero => exact Rewrites.pure
  | succ count ih =>
      intro front back hfront
      have hbelow : ∀ i < count, i < count + 1 := fun i hi => Nat.lt_succ_of_lt hi
      have hstart := ih (fun i hi => hold i (hbelow i hi)) (fun i hi => hnew i (hbelow i hi))
        (fun i hi => hbody i (hbelow i hi)) front (old count ++ back) hfront
      have holds : front ++ (List.range (count + 1)).flatMap old ++ back =
          front ++ (List.range count).flatMap old ++ (old count ++ back) := by
        simp [List.range_succ]
      rw [holds, forM_range_succ, List.range_succ, List.mapM_append]
      cases hblocks : (List.range count).mapM new with
      | error stop =>
          rw [hblocks] at hstart
          obtain ⟨left, hleft⟩ := hstart
          exact ⟨left, bind_apply_of_error hleft⟩
      | ok blocks =>
          rw [hblocks] at hstart
          have hdone : (List.range count).forM body
              (front ++ (List.range count).flatMap old ++ (old count ++ back)).toArray =
              .ok () (front ++ blocks.flatten ++ (old count ++ back)).toArray := hstart
          have hreached : (front ++ blocks.flatten).length = start + count * width := by
            rw [List.length_append, hfront,
              length_flatten_of_mapM_range (fun i hi => hnew i (hbelow i hi)) hblocks]
          have hlast := hbody count (Nat.lt_succ_self count) (front ++ blocks.flatten) back
            hreached
          rw [bind_apply_of_ok hdone, ← List.append_assoc]
          cases hblock : new count with
          | error stop =>
              rw [hblock] at hlast
              simpa [hblock] using hlast
          | ok block =>
              rw [hblock] at hlast
              simpa [hblock] using hlast

/-- A loop whose rounds all have a block. -/
theorem Rewrites.forM_range_ok (width : Nat) {count start : Nat}
    {body : Nat → Routine (Array α) Unit} {old new : Nat → List α}
    (hold : ∀ i < count, (old i).length = width) (hnew : ∀ i < count, (new i).length = width)
    (hbody : ∀ i < count, Rewrites (body i) (start + i * width) (old i) (.ok (new i))) :
    Rewrites ((List.range count).forM body) start ((List.range count).flatMap old)
      (.ok ((List.range count).flatMap new)) := by
  have hblocks : ∀ i < count, ∀ block, (.ok (new i) : Except Stop (List α)) = .ok block →
      block.length = width := by
    rintro i hi block ⟨rfl⟩
    exact hnew i hi
  have hloop := forM_range hold hblocks hbody
  rw [mapM_eq_ok_map fun i _ => rfl] at hloop
  exact hloop

/-- A loop whose rounds all rewrite the same block. -/
theorem Rewrites.forM_same {count start : Nat} {body : Nat → Routine (Array α) Unit}
    (block : Nat → List α)
    (hbody : ∀ i < count, Rewrites (body i) start (block i) (.ok (block (i + 1)))) :
    Rewrites ((List.range count).forM body) start (block 0) (.ok (block count)) := by
  induction count with
  | zero => exact Rewrites.pure
  | succ count ih =>
      rw [forM_range_succ]
      exact (ih fun i hi => hbody i (Nat.lt_succ_of_lt hi)).bind
        (hbody count (Nat.lt_succ_self count))

/-- A list of equal blocks, given as the blocks of a loop. -/
theorem exists_blocks {count width : Nat} {elements : List α}
    (hlength : elements.length = count * width) :
    ∃ block : Nat → List α, (∀ i < count, (block i).length = width) ∧
      elements = (List.range count).flatMap block := by
  refine ⟨fun i => (elements.drop (i * width)).take width, ?_, ?_⟩
  · intro i hi
    have hroom : (i + 1) * width ≤ count * width := Nat.mul_le_mul_right width hi
    rw [Nat.succ_mul] at hroom
    rw [List.length_take, List.length_drop]
    omega
  · have hstart : ∀ rounds, rounds ≤ count →
        elements.take (rounds * width) =
          (List.range rounds).flatMap fun i => (elements.drop (i * width)).take width := by
      intro rounds
      induction rounds with
      | zero => simp
      | succ rounds ih =>
          intro hrounds
          rw [List.range_succ, List.flatMap_append, ← ih (Nat.le_of_succ_le hrounds),
            List.flatMap_singleton, Nat.succ_mul, List.take_add]
    rw [← hstart count (Nat.le_refl count), ← hlength, List.take_length]

namespace Fills

variable {routine : Routine (Array α) Unit} {start width : Nat}

theorem read {value : Except Stop β} {rest : β → Routine (Array α) Unit}
    {outcomeOf : β → Except Stop (List α)}
    (hrest : ∀ b, value = .ok b → Fills (rest b) start width (outcomeOf b)) :
    Fills ((liftM value : Routine (Array α) β) >>= rest) start width (value >>= outcomeOf) :=
  fun old hold => Rewrites.read fun b hb => hrest b hb old hold

theorem read_ok {value : Except Stop β} {b : β} {rest : β → Routine (Array α) Unit}
    {outcome : Except Stop (List α)} (hvalue : value = .ok b)
    (hrest : Fills (rest b) start width outcome) :
    Fills ((liftM value : Routine (Array α) β) >>= rest) start width outcome :=
  fun old hold => Rewrites.read_ok hvalue (hrest old hold)

theorem store (start : Nat) (value : α) : Fills (store start value) start 1 (.ok [value]) := by
  intro old hold
  obtain ⟨element, rfl⟩ := List.length_eq_one_iff.mp hold
  exact rewrites_store start element value

theorem forM_range {count : Nat} {body : Nat → Routine (Array α) Unit}
    {new : Nat → Except Stop (List α)}
    (hnew : ∀ i < count, ∀ block, new i = .ok block → block.length = width)
    (hbody : ∀ i < count, Fills (body i) (start + i * width) width (new i)) :
    Fills ((List.range count).forM body) start (count * width)
      (List.flatten <$> (List.range count).mapM new) := by
  intro old hold
  obtain ⟨block, hblock, rfl⟩ := exists_blocks hold
  exact Rewrites.forM_range hblock hnew fun i hi => hbody i hi _ (hblock i hi)

theorem forM_range_ok {count : Nat} {body : Nat → Routine (Array α) Unit} {new : Nat → List α}
    (hnew : ∀ i < count, (new i).length = width)
    (hbody : ∀ i < count, Fills (body i) (start + i * width) width (.ok (new i))) :
    Fills ((List.range count).forM body) start (count * width)
      (.ok ((List.range count).flatMap new)) := by
  intro old hold
  obtain ⟨block, hblock, rfl⟩ := exists_blocks hold
  exact Rewrites.forM_range_ok width hblock hnew fun i hi => hbody i hi _ (hblock i hi)

theorem run {buffer : Array α} {new : List α} (hsize : buffer.size = width)
    (hwhole : Fills routine 0 width (.ok new)) : routine buffer = .ok () new.toArray := by
  have hdone := (hwhole buffer.toList (by simpa using hsize)).run
  simpa using hdone

end Fills

theorem flatMap_range_getElem? (target : Array α) :
    ((List.range target.size).flatMap fun i => target[i]?.toList) = target.toList := by
  have hstart : ∀ rounds, rounds ≤ target.size →
      ((List.range rounds).flatMap fun i => target[i]?.toList) = target.toList.take rounds := by
    intro rounds
    induction rounds with
    | zero => simp
    | succ rounds ih =>
        intro hrounds
        rw [List.range_succ, List.flatMap_append, ih (Nat.le_of_succ_le hrounds),
          List.flatMap_singleton, List.take_add_one, Array.getElem?_toList]
  rw [hstart target.size (Nat.le_refl _), ← Array.length_toList, List.take_length]

/-- A loop over the places of a block, each of which its round rewrites. -/
theorem Rewrites.forM_places {count start : Nat} {body : Nat → Routine (Array α) Unit}
    {old new : Array α} (hold : old.size = count) (hnew : new.size = count)
    (hbody : ∀ i x y, old[i]? = some x → new[i]? = some y →
      Rewrites (body i) (start + i) [x] (.ok [y])) :
    Rewrites ((List.range count).forM body) start old.toList (.ok new.toList) := by
  have hplace : ∀ i < count, ∃ x y, old[i]? = some x ∧ new[i]? = some y := by
    intro i hi
    have hi' : i < old.size := lt_of_lt_of_eq hi hold.symm
    have hi'' : i < new.size := lt_of_lt_of_eq hi hnew.symm
    exact ⟨old[i], new[i], Array.getElem?_eq_getElem hi', Array.getElem?_eq_getElem hi''⟩
  rw [← flatMap_range_getElem? old, ← flatMap_range_getElem? new, hold, hnew]
  apply Rewrites.forM_range_ok 1
  · intro i hi
    obtain ⟨x, y, hx, hy⟩ := hplace i hi
    rw [hx]
    rfl
  · intro i hi
    obtain ⟨x, y, hx, hy⟩ := hplace i hi
    rw [hy]
    rfl
  · intro i hi
    obtain ⟨x, y, hx, hy⟩ := hplace i hi
    rw [hx, hy, Nat.mul_one]
    exact hbody i x y hx hy

/-- A loop over the places of a buffer that puts the element of `target` into each. -/
theorem forM_range_eq_target {buffer target : Array α} {body : Nat → Routine (Array α) Unit}
    (hsize : buffer.size = target.size)
    (hbody : ∀ i value, target[i]? = some value → Fills (body i) i 1 (.ok [value])) :
    (List.range target.size).forM body buffer = .ok () target := by
  have hloop : Rewrites ((List.range target.size).forM body) 0 buffer.toList
      (.ok target.toList) := by
    apply Rewrites.forM_places hsize rfl
    intro i x y _ hy
    rw [Nat.zero_add]
    exact hbody i y hy [x] rfl
  exact hloop.run

/-- A loop over the places of a block that carries a value along, which takes up each
element that is stored. -/
theorem foldlM_range'_store {step : β → α → β} {value : Nat → α} {start limit : Nat}
    {body : β → Nat → Routine (Array α) β}
    (hbody : ∀ state i, i < limit → ∀ (front back : List α) (u : α), front.length = start + i →
      body state i (front ++ u :: back).toArray =
        .ok (step state (value i)) (front ++ value i :: back).toArray)
    (state : β) (first : Nat) (front old back : List α) (hfront : front.length = start + first)
    (hlimit : first + old.length ≤ limit) :
    (List.range' first old.length).foldlM body state (front ++ old ++ back).toArray =
      .ok (((List.range' first old.length).map value).foldl step state)
        (front ++ (List.range' first old.length).map value ++ back).toArray := by
  induction old generalizing state first front with
  | nil => rfl
  | cons u old ih =>
      rw [List.length_cons] at hlimit
      have hround := hbody state first (by omega) front (old ++ back) u hfront
      have hrest := ih (step state (value first)) (first + 1) (front ++ [value first])
        (by simp [hfront, Nat.add_assoc]) (by omega)
      rw [List.length_cons, List.range'_succ, List.foldlM_cons, List.append_assoc,
        List.cons_append, bind_apply_of_ok hround]
      simpa using hrest

end InPlace
end NetImport
