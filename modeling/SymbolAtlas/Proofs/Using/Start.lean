import SymbolAtlas.Proofs.Graph.Discovery
import SymbolAtlas.Proofs.Using.Naming

/-!
# Closing from a start

Where all namespaces are open, closing one of them gives it everything it can reach, however many
cycles there are on the way. The others that are closed with it may miss something, but not the
start: it absorbs last, and each of them was come to by a directive of one that absorbs later, so
that walks down the order lead from the start to all of them.
-/

set_option autoImplicit false

namespace SymbolAtlas.Atlas

variable {a b c : Atlas}
variable {n w : EntityId}

/-! ## Walks down the order -/

theorem Descends.snoc {order : List EntityId} {v : EntityId} (h : a.Descends order 0 n v)
    (hw : w ∈ a.usedNamespaces v) (hprecedes : Precedes order w v) : a.Descends order 0 n w := by
  induction h with
  | last h =>
    cases h with
    | refl => exact .down hw hprecedes (.last (.refl 0 w))
  | down hv hprecedes' _ ih => exact .down hv hprecedes' (ih hw hprecedes)

theorem Descends.slacken {order : List EntityId} (h : a.Descends order 0 n w) (slack : Nat) :
    a.Descends order slack n w := by
  induction h with
  | last h =>
    cases h with
    | refl => exact .last (.refl slack _)
  | down hv hprecedes _ ih => exact .down hv hprecedes ih

theorem descends_of_mem_usingOrder (hw : w ∈ a.usingOrder n) :
    a.Descends (a.usingOrder n) 0 n w := by
  obtain ⟨before, after, heq⟩ := List.append_of_mem hw
  -- By the number of namespaces that absorb later.
  induction hlength : after.length using Nat.strong_induction_on generalizing before w after with
  | _ length ih =>
    subst hlength
    by_cases hstart : w = n
    · subst hstart
      exact .last (.refl 0 w)
    · obtain ⟨v, hv, hedge⟩ := a.usingGraph.exists_later_source_of_ne _ heq hstart
      obtain ⟨between, rest, rfl⟩ := List.append_of_mem hv
      have hsplit : a.usingOrder n = (before ++ w :: between) ++ v :: rest := by
        rw [heq, List.append_assoc, List.cons_append]
      have hdescends := ih rest.length (by simp; omega)
        (hsplit ▸ List.mem_append_right _ List.mem_cons_self) _ _ hsplit rfl
      exact hdescends.snoc hedge ⟨before ++ w :: between, rest, hsplit, by simp⟩

theorem HasSoundUsing.mem_usingOrder_of_reaches (ha : a.HasSoundUsing)
    (hopen : ∀ m ∈ a.namespaceIds, a.isOpen m = true) (hn : n ∈ a.namespaceIds)
    (hreaches : a.Reaches n w) : w ∈ a.usingOrder n := by
  have hapart : a.usingGraph.KeysApart { key := EntityId.slot, admits := a.isOpen }
      (· ∈ a.namespaceIds) :=
    ⟨fun _ _ hedge => ha.mem_namespaceIds_of_used hedge,
      fun _ _ hx hy => ha.isNumbered.eq_of_slot hx hy⟩
  refine a.usingGraph.mem_finished_of_reachable _ hapart rfl hn (.mono (fun x y hedge => ?_) _ _ hreaches)
  have hy := hopen y (ha.mem_namespaceIds_of_used hedge)
  exact ⟨⟨hedge, hy⟩, mem_entityNumbers_of_isOpen hy⟩

/-! ## What is kept -/

/-- Whatever namespaces use in `a`, they use in `b` under the same names. -/
structure KeepsUsed (a b : Atlas) : Prop where
  directives : ∀ n k t, (a.directives n).get? k = some t → (b.directives n).get? k = some t
  declarations : ∀ n k t, (a.declarations n).get? k = some t → (b.declarations n).get? k = some t

theorem KeepsUsed.refl (a : Atlas) : a.KeepsUsed a :=
  ⟨fun _ _ _ h => h, fun _ _ _ h => h⟩

theorem KeepsUsed.trans (h : a.KeepsUsed b) (h' : b.KeepsUsed c) : a.KeepsUsed c :=
  ⟨fun n k t hget => h'.directives n k t (h.directives n k t hget),
    fun n k t hget => h'.declarations n k t (h.declarations n k t hget)⟩

theorem keepsUsed_modifyNamespace (a : Atlas) (id : EntityId) {f : NamespaceBody → NamespaceBody}
    (hdirectives : ∀ n k t, n.usingDirectives.get? k = some t →
      (f n).usingDirectives.get? k = some t)
    (hdeclarations : ∀ n k t, n.usingDeclarations.get? k = some t →
      (f n).usingDeclarations.get? k = some t) : a.KeepsUsed (a.modifyNamespace id f) := by
  constructor
  · intro n k t hget
    unfold Atlas.directives at hget ⊢
    rw [namespace?_modifyNamespace]
    cases hn : a.namespace? n with
    | none => simp [hn, Dict.get?, Dict.empty] at hget
    | some body =>
      rw [hn] at hget
      split
      · exact hdirectives body k t hget
      · exact hget
  · intro n k t hget
    unfold Atlas.declarations at hget ⊢
    rw [namespace?_modifyNamespace]
    cases hn : a.namespace? n with
    | none => simp [hn, Dict.get?, Dict.empty] at hget
    | some body =>
      rw [hn] at hget
      split
      · exact hdeclarations body k t hget
      · exact hget

theorem keepsUsed_absorbUsed (a : Atlas) (u : EntityId) : a.KeepsUsed (a.absorbUsed u) := by
  refine a.keepsUsed_modifyNamespace u (fun n k t hget => ?_) fun n k t hget => ?_
  · rw [Dict.get?_foldl_insertNew, hget, Option.some_or]
  · rw [Dict.get?_foldl_insertNew, hget, Option.some_or]

theorem keepsUsed_closeFrom (a : Atlas) (id : EntityId) : a.KeepsUsed (a.closeFrom id) := by
  rw [closeFrom]
  split
  · have hmarked : a.KeepsUsed ((a.usingOrder id).foldl markClosed a) := by
      refine foldl_kept (fun b u hb => hb.trans ?_) _ (.refl a)
      exact b.keepsUsed_modifyNamespace u (fun _ _ _ hget => hget) fun _ _ _ hget => hget
    exact foldl_kept (fun b u hb => hb.trans (b.keepsUsed_absorbUsed u)) _ hmarked
  · exact .refl a

/-! ## The start -/

theorem closeUsing_eq_ok (hn : (a.namespace? n).isSome = true) :
    a.closeUsing n = .ok (a.closeFrom n) := by
  unfold closeUsing requireNamespace
  obtain ⟨body, hbody⟩ := Option.isSome_iff_exists.mp hn
  obtain ⟨e, he, hnamespace⟩ := Option.bind_eq_some_iff.mp hbody
  simp only [he, hnamespace]
  rfl

/-- After operations that leave all namespaces open, closing one of them gives it exactly the other
ones that it can reach, and exactly the declarations that it or one of these uses. No namespace uses
itself then, and whatever one used it still uses under the same name. -/
theorem used_after_closeUsing (options : Options) {operations : List Operation}
    (hoperations : ∀ operation ∈ operations, operation.RespectsUsing)
    (ha : Operation.performAll (.empty options) operations = a)
    (hopen : ∀ m ∈ a.namespaceIds, a.isOpen m = true) {n : EntityId} (hn : n ∈ a.namespaceIds) :
    ∃ b, a.closeUsing n = .ok b ∧ a.UsesReachable b n ∧ a.DeclaresReachable b n ∧
      a.KeepsUsed b ∧ b.namespaceIds = a.namespaceIds ∧
      ∀ m ∈ b.namespaceIds, m ∉ b.usedNamespaces m := by
  have hsound : a.HasSoundUsing := ha ▸ Operation.hasSoundUsing_performAll options hoperations
  have hclosing := (closing_nil hsound hopen).closeFrom hsound hn (hopen n hn)
  have hstart : n ∈ a.usingOrder n := hsound.mem_usingOrder_of_reaches hopen hn .refl
  have hall (slack : Nat) (w : EntityId) (hreaches : a.Reaches n w) :
      a.Descends (a.usingOrder n) slack n w :=
    (descends_of_mem_usingOrder (hsound.mem_usingOrder_of_reaches hopen hn hreaches)).slacken slack
  refine ⟨a.closeFrom n, closeUsing_eq_ok (hsound.isSome_namespace? hn), ?_, ?_,
    a.keepsUsed_closeFrom n, hclosing.mem_namespaceIds, fun m hm hused => ?_⟩
  · exact (usesReachable_iff (hclosing.namespaces n hstart)).mpr fun w _ => hall 2 w
  · have hdeclarations (k : String) : k ∈ ((a.closeFrom n).usedDeclarations n).map (·.1) ↔
        ∃ w, a.Descends (a.usingOrder n) 1 n w ∧ k ∈ (a.usedDeclarations w).map (·.1) := by
      simp only [mem_map_usedDeclarations_iff]
      exact hclosing.declarations n hstart k
    exact (declaresReachable_iff hdeclarations).mpr fun w hreaches k hk =>
      ⟨w, hall 1 w hreaches, hk⟩
  · exact (hclosing.sound.used hm hused).2 rfl

/-- Four namespaces that use one another in a ring; the third one uses a declaration besides. -/
def circuit : List Operation :=
  [.register "a" .namespaceKind {}, .register "b" .namespaceKind {},
    .register "c" .namespaceKind {}, .register "d" .namespaceKind {},
    .useNamespace ⟨1⟩ ⟨2⟩, .useNamespace ⟨2⟩ ⟨3⟩, .useNamespace ⟨3⟩ ⟨4⟩, .useNamespace ⟨4⟩ ⟨1⟩,
    .useDeclaration ⟨3⟩ "c::f" (.member ⟨1⟩)]

/-- The last namespace of the ring reaches the one before it, all the way round. -/
theorem used_after_closeUsing_circuit :
    let a := Operation.performAll (.empty {}) circuit
    (∀ operation ∈ circuit, operation.RespectsUsing) ∧ (∀ m ∈ a.namespaceIds, a.isOpen m = true) ∧
      ⟨4⟩ ∈ a.namespaceIds ∧
      ∃ b, a.closeUsing ⟨4⟩ = .ok b ∧ a.UsesReachable b ⟨4⟩ ∧ a.DeclaresReachable b ⟨4⟩ ∧
        a.KeepsUsed b ∧ b.namespaceIds = a.namespaceIds ∧
        (∀ m ∈ b.namespaceIds, m ∉ b.usedNamespaces m) ∧ ⟨3⟩ ∈ b.usedNamespaces ⟨4⟩ := by
  intro a
  have hoperations : ∀ operation ∈ circuit, operation.RespectsUsing := by
    simp [circuit, Operation.RespectsUsing]
  have hopen : ∀ m ∈ a.namespaceIds, a.isOpen m = true := by decide +kernel
  have hlast : ⟨4⟩ ∈ a.namespaceIds := by decide +kernel
  obtain ⟨b, hb, huses, hdeclares, hkeeps, hids, hself⟩ :=
    used_after_closeUsing {} hoperations rfl hopen hlast
  have h41 : ⟨1⟩ ∈ a.usedNamespaces ⟨4⟩ := by decide +kernel
  have h12 : ⟨2⟩ ∈ a.usedNamespaces ⟨1⟩ := by decide +kernel
  have h23 : ⟨3⟩ ∈ a.usedNamespaces ⟨2⟩ := by decide +kernel
  refine ⟨hoperations, hopen, hlast, b, hb, huses, hdeclares, hkeeps, hids, hself, ?_⟩
  exact (huses ⟨3⟩).mpr ⟨by decide, .head h41 (.head h12 (.single h23))⟩

end SymbolAtlas.Atlas
