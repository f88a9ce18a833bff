import TraceIndex.Ingest.Turns
import TraceIndex.Proofs.Runs

namespace TraceIndex

namespace Service

def Reaches (s t : Service) : Prop := ∃ actions, t = s.run actions

variable {s t u : Service}

theorem Reaches.refl (s : Service) : Reaches s s := ⟨[], rfl⟩

theorem Reaches.trans (h : Reaches s t) (h' : Reaches t u) : Reaches s u := by
  obtain ⟨first, rfl⟩ := h
  obtain ⟨rest, rfl⟩ := h'
  exact ⟨first ++ rest, (run_append first rest).symm⟩

theorem reaches_act (s : Service) (a : Action) : Reaches s (s.act a) := ⟨[a], rfl⟩

theorem reaches_repeat (i n : Nat) (s : Service) : Reaches s (Nat.repeat (observe i) n s) := by
  induction n with
  | zero => exact .refl s
  | succ n ih => exact ih.trans (reaches_act _ (.observe i))

theorem reaches_observeUntilFailure (i n : Nat) (s : Service) :
    Reaches s (observeUntilFailure i n s) := by
  induction n generalizing s with
  | zero => exact .refl s
  | succ n ih =>
    rw [observeUntilFailure]
    split
    · exact .refl s
    · exact (reaches_act s (.observe i)).trans (ih _)

theorem reaches_turn (i : Nat) (s : Service) : Reaches s (s.turn i) := by
  simp only [turn]
  split
  · exact reaches_repeat i _ s
  · exact reaches_observeUntilFailure i _ s

theorem advance_reversed (l : List Flight) (k : Nat) :
    ((l.take k).reverse ++ l.drop k)[k]?.toList ++ ((l.take k).reverse ++ l.drop k).eraseIdx k =
      (l.take (k + 1)).reverse ++ l.drop (k + 1) := by
  by_cases hk : k < l.length
  · have hlen : (l.take k).reverse.length = k := by
      rw [List.length_reverse, List.length_take]
      omega
    have hget : ((l.take k).reverse ++ l.drop k)[k]? = some l[k] := by
      rw [List.getElem?_append_right (by omega), hlen, Nat.sub_self, List.drop_eq_getElem_cons hk]
      rfl
    have herase : ((l.take k).reverse ++ l.drop k).eraseIdx k =
        (l.take k).reverse ++ l.drop (k + 1) := by
      rw [List.eraseIdx_append_of_length_le (by omega), hlen, Nat.sub_self,
        List.drop_eq_getElem_cons hk]
      rfl
    rw [hget, herase, List.take_succ_eq_append_getElem hk, List.reverse_append]
    rfl
  · have htake : ∀ n, k ≤ n → l.take n = l ∧ l.drop n = [] := fun n hn =>
      ⟨List.take_of_length_le (by omega), List.drop_eq_nil_of_le (by omega)⟩
    have hlen : l.reverse.length ≤ k := by
      rw [List.length_reverse]
      omega
    obtain ⟨hk₁, hk₂⟩ := htake k (by omega)
    obtain ⟨hk₃, hk₄⟩ := htake (k + 1) (by omega)
    rw [hk₁, hk₂, hk₃, hk₄, List.append_nil, List.getElem?_eq_none hlen,
      List.eraseIdx_of_length_le hlen]
    rfl

theorem run_advances {i : Nat} {b : Batch} (hb : s.batches[i]? = some b) (k : Nat) :
    s.run ((List.range k).map (.advance i)) =
      s.setBatch i { b with ready := (b.ready.take k).reverse ++ b.ready.drop k } := by
  induction k with
  | zero => exact (setBatch_self hb).symm
  | succ k ih =>
    have hget : (s.setBatch i { b with
        ready := (b.ready.take k).reverse ++ b.ready.drop k }).batches[i]? =
          some { b with ready := (b.ready.take k).reverse ++ b.ready.drop k } :=
      getElem?_set_of_some hb _
    rw [List.range_succ, List.map_append, run_append, ih]
    change advance _ i k = _
    simp only [advance, hget, Batch.advance, advance_reversed]
    simp only [setBatch, List.set_set]

theorem reaches_reverse {i : Nat} {b : Batch} (hb : s.batches[i]? = some b) :
    Reaches s (s.setBatch i { b with ready := b.ready.reverse }) := by
  have h := run_advances hb b.ready.length
  rw [List.take_length, List.drop_length, List.append_nil] at h
  exact ⟨_, h.symm⟩

theorem reaches_step (i : Nat) (l : Line) (s : Service) : Reaches s (s.step i l).2 := by
  simp only [step]
  split
  · exact .refl s
  · split
    · rename_i before after hbefore hafter
      apply (reaches_turn i s).trans
      simp only [Batch.leave]
      split
      · rw [setBatch_self hafter]
        exact .refl _
      · exact reaches_reverse hafter
    · exact reaches_turn i s

theorem reaches_takeTurns (n : Nat) (l : Line) (s : Service) : Reaches s (takeTurns n l s) := by
  induction n generalizing l s with
  | zero => exact .refl s
  | succ n ih =>
    simp only [takeTurns]
    split
    · exact .refl s
    · rename_i i l' _
      exact (reaches_step i l' s).trans (ih _ _)

theorem reaches_settles (order : List Nat) (s : Service) :
    Reaches s (order.foldl (fun s i => s.settle i) s) := by
  induction order generalizing s with
  | nil => exact .refl s
  | cons i order ih => exact (reaches_repeat i _ s).trans (ih _)

theorem reaches_settleAll (order : List Nat) (s : Service) : Reaches s (s.settleAll order) :=
  (reaches_takeTurns _ _ s).trans (reaches_settles order _)

theorem reaches_resolves (hs : s.Ticketed) (fate : Fate) {chosen : List (Nat × Statement)}
    (hc : (chosen.map (·.1)).Nodup) (hsub : ∀ h ∈ chosen, h ∈ s.held) :
    Reaches s (chosen.foldl (resolve fate)
      { s with held := s.held.filter fun h => h.1 ∉ chosen.map (·.1) }) := by
  induction chosen generalizing s with
  | nil =>
    simp only [List.foldl_nil, List.map_nil, List.not_mem_nil, not_false_eq_true, decide_true,
      List.filter_true]
    exact .refl s
  | cons h rest ih =>
    have hunder := heldUnder?_of_mem hs (hsub h List.mem_cons_self)
    have hstep := resolveUnder_of_some hunder fate
    have hkept := mem_held_of_release hc hsub
    let t := s.resolveUnder fate h.1
    have ht : t = resolve fate (s.unhold h.1) h := by simp only [t, resolveUnder, hunder]
    have hheld : t.held = s.held.filter (·.1 ≠ h.1) := by simp only [t, hstep]
    have hrun : Reaches t (rest.foldl (resolve fate)
        { t with held := t.held.filter fun g => g.1 ∉ rest.map (·.1) }) :=
      ih (ticketed_resolve hs fate hunder) (List.nodup_cons.mp hc).2 (by rwa [hheld])
    -- The ticket leaves the gate first here, and with the others in the fold.
    have hfirst : { t with held := s.held.filter fun g => g.1 ∉ (h :: rest).map (·.1) } =
        resolve fate { s with held := s.held.filter fun g => g.1 ∉ (h :: rest).map (·.1) } h := by
      rw [ht]
      cases fate <;> rfl
    rw [hheld, filter_release, hfirst] at hrun
    exact (reaches_act s (.resolve fate h.1)).trans hrun

theorem reaches_resolveAll (hs : s.Ticketed) (fate : Fate) {chosen : List (Nat × Statement)}
    (hc : (chosen.map (·.1)).Nodup) (hsub : ∀ h ∈ chosen, h ∈ s.held) :
    Reaches s (s.resolveAll fate chosen) :=
  (reaches_resolves hs fate hc hsub).trans (reaches_settleAll _ _)

/-- A run goes on to where held-back statements that leave the gate together, and the turns that
their batches take then, lead a service. -/
theorem exists_run_resolveAll {setup : Setup} (opened : setup.openService = .ok s)
    (actions : List Action) (fate : Fate) {chosen : List (Nat × Statement)}
    (hc : (chosen.map (·.1)).Nodup) (hsub : ∀ h ∈ chosen, h ∈ (s.run actions).held) :
    ∃ more, (s.run actions).resolveAll fate chosen = s.run (actions ++ more) := by
  obtain ⟨more, hmore⟩ := reaches_resolveAll (ticketed_run opened actions) fate hc hsub
  exact ⟨more, by rw [hmore, run_append]⟩

theorem exists_run_resolveAt {setup : Setup} (opened : setup.openService = .ok s)
    (actions : List Action) (fate : Fate) (i : Nat) :
    ∃ more, (s.run actions).resolveAt fate i = s.run (actions ++ more) := by
  apply exists_run_resolveAll opened
  · cases (s.run actions).held[i]? with
    | none => exact List.nodup_nil
    | some h => exact List.nodup_singleton h.1
  · intro h hh
    exact List.mem_of_getElem? (Option.mem_toList.mp hh)

end Service

end TraceIndex
