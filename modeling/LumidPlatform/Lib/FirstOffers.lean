import LumidPlatform.Lib.Assoc
import Mathlib.Data.List.Induction

/-!
# The first offer for every key

Offers come in order, each for a key, and only the first one for a key is taken. What is taken
has no key twice, and a lookup finds in it what it finds among all offers.
-/

namespace FirstOffers

variable {K V : Type*} [DecidableEq K]

/-- An offer is taken unless there is one for its key. -/
def take (taken : List (K × V)) (offer : K × V) : List (K × V) :=
  if offer.1 ∈ taken.map Prod.fst then taken else taken ++ [offer]

def firsts (offers : List (K × V)) : List (K × V) := offers.foldl take []

theorem firsts_append (offers : List (K × V)) (offer : K × V) :
    firsts (offers ++ [offer]) = take (firsts offers) offer := by
  rw [firsts, List.foldl_append]
  rfl

theorem mem_keys_firsts {offers : List (K × V)} {key : K} :
    key ∈ (firsts offers).map Prod.fst ↔ key ∈ offers.map Prod.fst := by
  induction offers using List.reverseRecOn with
  | nil => rfl
  | append_singleton offers offer inductionHypothesis =>
    rw [firsts_append, take, List.map_append, List.mem_append, List.map_singleton,
      List.mem_singleton]
    split_ifs with known
    · rw [inductionHypothesis]
      refine ⟨Or.inl, fun either => ?_⟩
      rcases either with before | rfl
      · exact before
      · exact inductionHypothesis.mp known
    · rw [List.map_append, List.mem_append, List.map_singleton, List.mem_singleton,
        inductionHypothesis]

theorem nodup_firsts (offers : List (K × V)) : ((firsts offers).map Prod.fst).Nodup := by
  induction offers using List.reverseRecOn with
  | nil => exact List.nodup_nil
  | append_singleton offers offer inductionHypothesis =>
    rw [firsts_append, take]
    split_ifs with known
    · exact inductionHypothesis
    · rw [List.map_append, List.map_singleton]
      exact List.nodup_append.mpr ⟨inductionHypothesis, List.nodup_singleton _,
        fun key inside other last same => known (List.mem_singleton.mp last ▸ same ▸ inside)⟩

theorem lookup_firsts (offers : List (K × V)) (key : K) :
    (firsts offers).lookup key = offers.lookup key := by
  induction offers using List.reverseRecOn with
  | nil => rfl
  | append_singleton offers offer inductionHypothesis =>
    rw [firsts_append, take, List.lookup_append]
    split_ifs with known
    · rw [inductionHypothesis]
      by_cases same : key = offer.1
      · -- An earlier offer for the key is found first.
        subst same
        obtain ⟨value, found⟩ : ∃ value, offers.lookup offer.1 = some value := by
          obtain ⟨pair, member, key⟩ := List.mem_map.mp (mem_keys_firsts.mp known)
          cases missing : offers.lookup offer.1 with
          | some value => exact ⟨value, rfl⟩
          | none =>
            have differs := List.lookup_eq_none_iff.mp missing pair member
            rw [key] at differs
            simp at differs
        rw [found, Option.some_or]
      · rw [Assoc.lookup_of_ne same, List.lookup_nil, Option.or_none]
    · rw [List.lookup_append, inductionHypothesis]

/-- A pair is taken exactly where it is the first offer for its key. -/
theorem mem_firsts {offers : List (K × V)} {key : K} {value : V} :
    (key, value) ∈ firsts offers ↔ offers.lookup key = some value := by
  rw [← lookup_firsts, Assoc.lookup_eq_some_iff (nodup_firsts offers)]

/-- What a source offers is taken where no earlier source offers the key. -/
theorem mem_firsts_flatMap {S : Type*} {sources : List S} {offers : S → List (K × V)} {key : K}
    {value : V} (member : (key, value) ∈ firsts (sources.flatMap offers)) :
    ∃ before source after, sources = before ++ source :: after ∧
      (key, value) ∈ offers source ∧
      ∀ earlier ∈ before, key ∉ (offers earlier).map Prod.fst := by
  have found := mem_firsts.mp member
  clear member
  induction sources with
  | nil => cases found
  | cons source rest inductionHypothesis =>
    rw [List.flatMap_cons, List.lookup_append] at found
    cases own : (offers source).lookup key with
    | some first =>
      rw [own, Option.some_or] at found
      obtain rfl := Option.some.inj found
      exact ⟨[], source, rest, rfl, Assoc.mem_of_lookup own,
        fun _ none => absurd none List.not_mem_nil⟩
    | none =>
      rw [own, Option.none_or] at found
      obtain ⟨before, other, after, rfl, later, missing⟩ := inductionHypothesis found
      refine ⟨source :: before, other, after, rfl, later, fun earlier inside offered => ?_⟩
      rcases List.mem_cons.mp inside with rfl | inside
      · obtain ⟨pair, member, same⟩ := List.mem_map.mp offered
        have differs := List.lookup_eq_none_iff.mp own pair member
        rw [same] at differs
        simp at differs
      · exact missing earlier inside offered

end FirstOffers
