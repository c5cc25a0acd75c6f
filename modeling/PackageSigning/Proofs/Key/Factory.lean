import Mathlib.Data.List.Perm.Basic
import PackageSigning.Key.Factory
import PackageSigning.Key.Writing
import PackageSigning.Proofs.Outcome

/-!
# Which factory decodes a key

The factories are tried one after the other. The outside of a key names one algorithm, and no two
factories accept the same one, so at most one factory takes the bytes
(`KeyFactory.Takes.unique`). A factory that does not take them refuses them in the one way after
which the next one is tried. Hence the result is the key of the factory that takes the bytes,
whatever the order, and the factories in front of it are all that is tried in vain
(`ProviderRegistry.decodeKey_whatever_the_order`).
-/

namespace PackageSigning

namespace KeyFactory

/-- The factory makes a key of the bytes. -/
def Takes (f : KeyFactory) (b : Bytes) : Prop := ∃ k, f.decode b = .ok k

variable {f g : KeyFactory} {b : Bytes} {k : PrivateKey}

/-! ## One factory -/

/-- No algorithm is accepted by two factories. -/
theorem eq_of_accepts {a : KeyAlgorithm} (hf : f.accepts a = true) (hg : g.accepts a = true) :
    f = g := by
  cases a <;> cases f <;> cases g <;> first | rfl | contradiction

/-- A factory makes a key when the outside names an algorithm that it accepts and the inside is
a key of its kind. -/
theorem decode_eq_ok_iff :
    f.decode b = .ok k ↔
      (∃ a e, outline? b = some (a, e) ∧ f.accepts a = true) ∧
        KeyReading.privateKey b = .ok k ∧ f.makes k = true := by
  unfold decode
  cases houtline : outline? b with
  | none => simp
  | some found =>
    obtain ⟨a, e⟩ := found
    cases haccepts : f.accepts a with
    | false => simp [haccepts]
    | true =>
      cases hkey : KeyReading.privateKey b with
      | error refusal => simp [haccepts]
      | ok l => cases hmakes : f.makes l <;> grind

/-- At most one factory takes any bytes. -/
theorem Takes.unique (hf : f.Takes b) (hg : g.Takes b) : f = g := by
  obtain ⟨k, hk⟩ := hf
  obtain ⟨l, hl⟩ := hg
  obtain ⟨⟨a, e, houtline, hfa⟩, -⟩ := decode_eq_ok_iff.mp hk
  obtain ⟨⟨a', e', houtline', hga⟩, -⟩ := decode_eq_ok_iff.mp hl
  -- Both look at the same outside, which names one algorithm.
  have hsame : a = a' := by
    rw [houtline, Option.some.injEq, Prod.mk.injEq] at houtline'
    exact houtline'.1
  subst hsame
  exact eq_of_accepts hfa hga

/-- A factory that does not take the bytes says that they are no key for it. -/
theorem exists_decode_eq_error (h : ¬f.Takes b) : ∃ p, f.decode b = .error (.invalidKey p) := by
  cases hdecode : f.decode b with
  | ok k => exact absurd ⟨k, hdecode⟩ h
  | error fault =>
    unfold decode at hdecode
    -- Each way out is a refusal.
    repeat' split at hdecode
    all_goals first | cases hdecode; exact ⟨_, rfl⟩ | cases hdecode

/-! ## Trying them in turn -/

theorem decodeFirst_cons_of_ok (h : f.decode b = .ok k)
    (rest : List (Except Fault KeyFactory)) : decodeFirst (.ok f :: rest) b = (.ok k, [f]) := by
  rw [decodeFirst, h]

theorem decodeFirst_cons_of_not_takes (h : ¬f.Takes b) (rest : List (Except Fault KeyFactory)) :
    decodeFirst (.ok f :: rest) b =
      ((decodeFirst rest b).1, f :: (decodeFirst rest b).2) := by
  obtain ⟨p, hp⟩ := exists_decode_eq_error h
  rw [decodeFirst, hp]

/-- When no factory takes the bytes, all are tried. -/
theorem decodeFirst_of_none {found : List KeyFactory} (h : ∀ f ∈ found, ¬f.Takes b) :
    decodeFirst (found.map .ok) b = (.error (.unsupportedKey .noneAccepts), found) := by
  induction found with
  | nil => rfl
  | cons f found ih =>
    rw [List.forall_mem_cons] at h
    rw [List.map_cons, decodeFirst_cons_of_not_takes h.1, ih h.2]

/-- The factory that takes the bytes is reached after those in front of it, and ends the
trying. -/
theorem decodeFirst_of_mem {found : List KeyFactory} (hmem : f ∈ found)
    (h : f.decode b = .ok k) :
    decodeFirst (found.map .ok) b = (.ok k, found.takeWhile (· ≠ f) ++ [f]) := by
  induction found with
  | nil => cases hmem
  | cons g found ih =>
    rw [List.map_cons]
    by_cases hg : g = f
    · subst hg
      rw [decodeFirst_cons_of_ok h, List.takeWhile_cons_of_neg (by simp), List.nil_append]
    · have hrefuses : ¬g.Takes b := fun hgb => hg (hgb.unique ⟨k, h⟩)
      have hmem' : f ∈ found := (List.mem_cons.mp hmem).resolve_left (Ne.symm hg)
      rw [decodeFirst_cons_of_not_takes hrefuses, ih hmem',
        List.takeWhile_cons_of_pos (by simpa using hg), List.cons_append]

/-- The result does not depend on the order. -/
theorem decodeFirst_perm {found found' : List KeyFactory} (h : found.Perm found') (b : Bytes) :
    (decodeFirst (found.map .ok) b).1 = (decodeFirst (found'.map .ok) b).1 := by
  by_cases htaken : ∃ f ∈ found, f.Takes b
  · obtain ⟨f, hmem, k, hk⟩ := htaken
    rw [decodeFirst_of_mem hmem hk, decodeFirst_of_mem (h.mem_iff.mp hmem) hk]
  · push Not at htaken
    rw [decodeFirst_of_none htaken,
      decodeFirst_of_none fun f hf => htaken f (h.mem_iff.mpr hf)]

end KeyFactory

namespace ProviderRegistry
open KeyFactory

variable {r : ProviderRegistry} {found : String → KeyFactory}

/-- The lookups of algorithms that all have a factory. -/
theorem map_factory {order : List String} (h : ∀ name ∈ order, r.factory name = .ok (found name)) :
    order.map r.factory = (order.map found).map .ok := by
  rw [List.map_map]
  exact List.map_congr_left h

/-- Decoding a key with the factories that a registry finds: at most one factory takes the
bytes; the one that does makes the key, and is called after those in front of it and before no
other one; decoding fails when none takes them, and then all have been called; and the result is
the same in whichever order the algorithms are tried. -/
theorem decodeKey_whatever_the_order
    (finds : ∀ name ∈ algorithmOrder, r.factory name = .ok (found name)) (b : Bytes) :
    (∀ f g : KeyFactory, f.Takes b → g.Takes b → f = g) ∧
      (∀ f ∈ algorithmOrder.map found, ∀ k, f.decode b = .ok k →
        r.decodeKey b = (.ok k, (algorithmOrder.map found).takeWhile (· ≠ f) ++ [f])) ∧
      (∀ fault, (r.decodeKey b).1 = .error fault ↔
        fault = .unsupportedKey .noneAccepts ∧ ∀ f ∈ algorithmOrder.map found, ¬f.Takes b) ∧
      ((∀ f ∈ algorithmOrder.map found, ¬f.Takes b) →
        (r.decodeKey b).2 = algorithmOrder.map found) ∧
      ∀ order : List String, order.Perm algorithmOrder →
        (decodeFirst (order.map r.factory) b).1 = (r.decodeKey b).1 := by
  have hkey : r.decodeKey b = decodeFirst ((algorithmOrder.map found).map .ok) b := by
    rw [decodeKey, map_factory finds]
  refine ⟨fun f g => Takes.unique, fun f hf k hk => ?_, fun fault => ⟨fun hfault => ?_, ?_⟩,
    fun hnone => ?_, fun order horder => ?_⟩
  · rw [hkey, decodeFirst_of_mem hf hk]
  · -- A fault means that no factory takes the bytes, for one that did would make a key.
    have hnone : ∀ f ∈ algorithmOrder.map found, ¬f.Takes b := by
      intro f hf ⟨k, hk⟩
      rw [hkey, decodeFirst_of_mem hf hk] at hfault
      cases hfault
    rw [hkey, decodeFirst_of_none hnone, Except.error.injEq] at hfault
    exact ⟨hfault.symm, hnone⟩
  · intro ⟨hfault, hnone⟩
    rw [hkey, decodeFirst_of_none hnone, hfault]
  · rw [hkey, decodeFirst_of_none hnone]
  · have hfinds : ∀ name ∈ order, r.factory name = .ok (found name) :=
      fun name hname => finds name (horder.mem_iff.mp hname)
    rw [hkey, map_factory hfinds]
    exact decodeFirst_perm (horder.map found) b

/-- A registry in which a provider of one's own is asked before the built-in one. -/
def sampleOwn : ProviderRegistry :=
  ofList [(Provider.bare "Provider" "Own").offerFactory "EC" .ec, .standard Provider.standardName]

/-- The factories that it finds. -/
def sampleFound : String → KeyFactory
  | "RSA" => .rsa
  | "EC" => .ec
  | _ => .dsa

/-- There a key on a curve is decoded after one factory was tried in vain, also when the
algorithms are tried the other way round. -/
theorem sample_key_whatever_the_order :
    (∀ name ∈ algorithmOrder, sampleOwn.factory name = .ok (sampleFound name)) ∧
      sampleOwn.decodeKey (KeyWriting.privateKey (.ec .p224 1)) =
        (.ok (.ec .p224 1), [.rsa, .ec]) ∧
      (decodeFirst (["DSA", "EC", "RSA"].map sampleOwn.factory)
        (KeyWriting.privateKey (.ec .p224 1))).1 = .ok (.ec .p224 1) := by
  have finds : ∀ name ∈ algorithmOrder, sampleOwn.factory name = .ok (sampleFound name) := by
    decide +kernel
  obtain ⟨-, htakes, -, -, horder⟩ :=
    decodeKey_whatever_the_order finds (KeyWriting.privateKey (.ec .p224 1))
  have hkey := htakes .ec (by decide) (.ec .p224 1) (by decide +kernel)
  have hturned : ["DSA", "EC", "RSA"].Perm algorithmOrder := by decide
  refine ⟨finds, hkey, ?_⟩
  rw [horder _ hturned, hkey]

end ProviderRegistry
end PackageSigning
