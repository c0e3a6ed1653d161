import Himmy.Governance.KeyVault
import Himmy.Library.Transition

/-! # Keys under a growing configuration

One vault file is opened again and again, and each opening has the providers of the one before and
perhaps new ones. A row records the version of the key that sealed it, but it is opened by whatever
provider the current configuration has for its workspace.

A subject's key survives unless it was sealed by the provider of the process for a workspace that got a
provider of its own later (`keyFor_survives_iff`). -/

namespace Himmy

open SubjectKeyVault (mayDestroy keyFor_cases find?_remember find?_forget shredRow row?_shredRow
  keyFor_of_live)

variable {κ β : Type}

/-! ## Configurations -/

namespace VaultConfig

variable {first mid config : VaultConfig κ}

/-- No provider is taken away. -/
structure Extends (first config : VaultConfig κ) : Prop where
  metaKek : ∀ provider, first.metaKek = some provider → config.metaKek = some provider
  workspaceKek : ∀ provider, first.workspaceKek = some provider →
    config.workspaceKek = some provider

theorem Extends.refl (config : VaultConfig κ) : config.Extends config := ⟨fun _ h => h, fun _ h => h⟩

theorem Extends.trans (h : first.Extends mid) (h' : mid.Extends config) : first.Extends config where
  metaKek provider hprovider := h'.metaKek provider (h.metaKek provider hprovider)
  workspaceKek provider hprovider := h'.workspaceKek provider (h.workspaceKek provider hprovider)

/-- The key of the process sealed what a provider of the workspace is asked to open. -/
def Strands (first config : VaultConfig κ) (workspaceId : Option String) : Prop :=
  first.workspaceKek = none ∧ ∃ w sealer opener, workspaceId = some w
    ∧ first.metaKek = some sealer ∧ config.workspaceKek = some opener
    ∧ (opener w).kek ≠ sealer.kek

def Opens (first config : VaultConfig κ) (workspaceId : Option String) : Prop :=
  first.providerFor workspaceId = none
    ∨ (config.providerFor workspaceId).map KekProvider.kek
        = (first.providerFor workspaceId).map KekProvider.kek

theorem Extends.opens_iff (h : first.Extends config) (workspaceId : Option String) :
    first.Opens config workspaceId ↔ ¬ first.Strands config workspaceId := by
  have hmeta : first.metaKek = none ∨ config.metaKek.map KekProvider.kek
      = first.metaKek.map KekProvider.kek := by
    cases hsealer : first.metaKek with
    | none => exact Or.inl rfl
    | some sealer => rw [h.metaKek sealer hsealer]; exact Or.inr rfl
  unfold Opens Strands providerFor
  cases hfirst : first.workspaceKek with
  | some provider =>
    rw [h.workspaceKek provider hfirst]
    refine iff_of_true ?_ nofun
    cases workspaceId with
    | none => exact hmeta
    | some w => exact Or.inr rfl
  | none =>
    cases workspaceId with
    | none =>
      refine iff_of_true ?_ nofun
      cases config.workspaceKek <;> exact hmeta
    | some w =>
      cases hopener : config.workspaceKek with
      | none => exact iff_of_true hmeta nofun
      | some opener =>
        cases hsealer : first.metaKek with
        | none => exact iff_of_true (Or.inl rfl) nofun
        | some sealer =>
          constructor
          · rintro (hnone | hkek) ⟨-, w', sealer', opener', hw, hs, ho, hne⟩
            · cases hnone
            · cases hw; cases hs; cases ho
              exact hne (Option.some.inj hkek)
          · intro hnot
            refine Or.inr (congrArg some (Classical.byContradiction (fun hne => hnot ?_)))
            exact ⟨rfl, w, sealer, opener, rfl, rfl, rfl, hne⟩

end VaultConfig

/-! ## Openings -/

/-- The file and the vault that is open on it. -/
structure Opening (κ β : Type) where
  file : VaultFile β := {}
  vault : SubjectKeyVault κ β

inductive OpeningLabel (κ β : Type) where
  | openVault (config : VaultConfig κ)
  | keyFor (subjectId : String) (requested : Option String) (mint : Mint β)
  /-- `rotate_subject_key` reads the key and wraps no row; its tokens are not followed -/
  | rotate (subjectId : String) (mint : Mint β)
  | destroy (subjectId : String) (requested : Option String) (now : String)

namespace Opening

variable (A : Aead κ β) (st : Opening κ β)

/-- `key_for`; a call that raises changes nothing. -/
def keyFor (subjectId : String) (requested : Option String) (mint : Mint β) :
    Opening κ β × Except VaultError β :=
  match st.vault.keyFor A st.file subjectId requested mint with
  | .error e => (st, .error e)
  | .ok (file, vault, key) => (⟨file, vault⟩, .ok key)

/-- The calls, with the key that `key_for` answers. -/
def step : OpeningLabel κ β → Opening κ β × Option (Except VaultError β)
  | .openVault config => ({ st with vault := { config := config } }, none)
  | .keyFor subjectId requested mint =>
    ((st.keyFor A subjectId requested mint).1, some (st.keyFor A subjectId requested mint).2)
  | .rotate subjectId mint =>
    if st.vault.has st.file subjectId then ((st.keyFor A subjectId none mint).1, none)
    else (st, some (.error (.noKey subjectId)))
  | .destroy subjectId requested now =>
    let r := st.vault.destroy st.file subjectId requested now
    (⟨r.1.1, r.1.2⟩, none)

/-- The vault is opened again with the providers it had and maybe more. -/
def Grows (st : Opening κ β) : OpeningLabel κ β → Prop
  | .openVault config => st.vault.config.Extends config
  | _ => True

def Spares (subjectId : String) (st : Opening κ β) : OpeningLabel κ β → Prop
  | .destroy subject requested _ =>
    subject = subjectId → mayDestroy st.file subject requested = false
  | _ => True

end Opening

def openings (A : Aead κ β) : Machine (Opening κ β) (OpeningLabel κ β) (Option (Except VaultError β))
    where
  step := Opening.step A

/-! ## A key that was drawn and not destroyed -/

namespace Opening

variable {A : Aead κ β} {st : Opening κ β} {first : VaultConfig κ} {subjectId : String}
  {workspaceId : Option String} {key : β}

/-- No workspace is shredded, and the cache has keys of live rows only. -/
structure Sound (st : Opening κ β) : Prop where
  disabled : st.file.disabledWorkspaces = []
  cached : ∀ subject, (st.vault.cache.find? subject).isSome → (st.file.row? subject).isSome

/-- The subject's key, sealed under an earlier configuration, is in its row, and what the cache has is
    that key. -/
structure Held (A : Aead κ β) (first : VaultConfig κ) (subjectId : String)
    (workspaceId : Option String) (key : β) (st : Opening κ β) : Prop where
  grown : first.Extends st.vault.config
  disabled : st.file.disabledWorkspaces = []
  row : ∃ row, st.file.row? subjectId = some row
    ∧ row.Holds A (first.providerFor workspaceId) workspaceId key
  cached : ∀ got, st.vault.cache.find? subjectId = some got →
    got = key ∧ first.Opens st.vault.config workspaceId

theorem keyFor_ok (A : Aead κ β) (st : Opening κ β) (subject : String) (requested : Option String)
    (mint : Mint β) : (st.keyFor A subject requested mint).1 = st
      ∨ ∃ file vault got, st.vault.keyFor A st.file subject requested mint = .ok (file, vault, got)
        ∧ (st.keyFor A subject requested mint).1 = ⟨file, vault⟩ := by
  unfold keyFor
  cases hcall : st.vault.keyFor A st.file subject requested mint with
  | error e => exact Or.inl rfl
  | ok r =>
    obtain ⟨file, vault, got⟩ := r
    exact Or.inr ⟨file, vault, got, rfl, rfl⟩

theorem Sound.keyFor (h : st.Sound) (subject : String) (requested : Option String) (mint : Mint β) :
    (st.keyFor A subject requested mint).1.Sound := by
  rcases keyFor_ok A st subject requested mint with hsame | ⟨file, vault, got, hcall, hst⟩
  · rw [hsame]
    exact h
  · rw [hst]
    rcases keyFor_cases hcall with
      ⟨-, rfl, rfl⟩ | ⟨row, wrapped, hrow, -, -, rfl, rfl⟩ | ⟨workspaceId, -, hpresent, rfl, hmints⟩
    · exact h
    · refine ⟨h.disabled, fun other hother => ?_⟩
      rw [find?_remember] at hother
      split at hother
      · next hsame => rw [hsame, hrow]; rfl
      · exact h.cached other hother
    · refine ⟨hmints.disabled.trans h.disabled, fun other hother => ?_⟩
      rw [find?_remember] at hother
      split at hother
      · next hsame => rw [hsame]; exact hpresent
      · next hne => rw [hmints.others other hne]; exact h.cached other hother

theorem Sound.step (h : st.Sound) (a : OpeningLabel κ β) : (st.step A a).1.Sound := by
  cases a with
  | openVault config => exact ⟨h.disabled, nofun⟩
  | keyFor subject requested mint => exact h.keyFor subject requested mint
  | rotate subject mint =>
    unfold Opening.step
    dsimp only
    split
    · exact h.keyFor subject none mint
    · exact h
  | destroy subject requested now =>
    unfold Opening.step SubjectKeyVault.destroy
    dsimp only
    split
    · refine ⟨h.disabled, fun other hother => ?_⟩
      rw [find?_forget] at hother
      split at hother
      · cases hother
      · next hne =>
          show ((shredRow st.file subject now).row? other).isSome
          rw [row?_shredRow, if_neg hne]
          exact h.cached other hother
    · exact h

theorem Held.keyFor (h : st.Held A first subjectId workspaceId key) (subject : String)
    (requested : Option String) (mint : Mint β) :
    (st.keyFor A subject requested mint).1.Held A first subjectId workspaceId key := by
  rcases keyFor_ok A st subject requested mint with hsame | ⟨file, vault, got, hcall, hst⟩
  · rw [hsame]
    exact h
  · rw [hst]
    rcases keyFor_cases hcall with
      ⟨-, rfl, rfl⟩ | ⟨row, wrapped, hrow, hlive, hunwrap, rfl, rfl⟩
        | ⟨_, hnone, -, rfl, hmints⟩
    · exact h
    · refine ⟨h.grown, h.disabled, h.row, fun cached hcached => ?_⟩
      rw [find?_remember] at hcached
      split at hcached
      · next hsame =>
          cases hcached
          obtain ⟨row', hrow', hworkspace, wrapped', hlive', hkeeps⟩ := h.row
          rw [hsame, hrow] at hrow'
          cases hrow'
          rw [hlive] at hlive'
          cases hlive'
          rw [hworkspace] at hunwrap
          exact VaultConfig.eq_of_unwrap hkeeps hunwrap
      · exact h.cached cached hcached
    · obtain ⟨row, hrow, hholds⟩ := h.row
      have hne : subjectId ≠ subject := by
        rintro rfl
        obtain ⟨-, wrapped, hlive, -⟩ := hholds
        rw [hrow, Option.bind_some, hlive] at hnone
        cases hnone
      refine ⟨h.grown, hmints.disabled.trans h.disabled, ⟨row, ?_, hholds⟩, fun cached hcached => ?_⟩
      · exact (hmints.others subjectId hne).trans hrow
      · rw [find?_remember, if_neg hne] at hcached
        exact h.cached cached hcached

/-- **A step.** The key stays in its row, whatever is called and however the providers grow. -/
theorem Held.step (h : st.Held A first subjectId workspaceId key) {a : OpeningLabel κ β}
    (hgrows : st.Grows a) (hspares : st.Spares subjectId a) :
    (st.step A a).1.Held A first subjectId workspaceId key := by
  cases a with
  | openVault config => exact ⟨h.grown.trans hgrows, h.disabled, h.row, nofun⟩
  | keyFor subject requested mint => exact h.keyFor subject requested mint
  | rotate subject mint =>
    unfold Opening.step
    dsimp only
    split
    · exact h.keyFor subject none mint
    · exact h
  | destroy subject requested now =>
    unfold Opening.step SubjectKeyVault.destroy
    dsimp only
    split
    · next hmay =>
        have hne : subjectId ≠ subject := fun hsame => by rw [hspares hsame.symm] at hmay; cases hmay
        refine ⟨h.grown, h.disabled, ?_, fun cached hcached => ?_⟩
        · show ∃ row, (shredRow st.file subject now).row? subjectId = some row ∧ _
          rw [row?_shredRow, if_neg hne]
          exact h.row
        · rw [find?_forget, if_neg hne] at hcached
          exact h.cached cached hcached
    · exact h

theorem Sound.held_of_keyFor (h : st.Sound) (hfirst : st.file.row? subjectId = none)
    (requested : Option String) (mint : Mint β) :
    (st.keyFor A subjectId requested mint).2 = .ok mint.key
      ∧ (st.keyFor A subjectId requested mint).1.Held A st.vault.config subjectId requested
          mint.key := by
  have hcache : st.vault.cache.find? subjectId = none := by
    cases hcached : st.vault.cache.find? subjectId with
    | none => rfl
    | some got =>
      have hsome := h.cached subjectId (by rw [hcached]; rfl)
      rw [hfirst] at hsome
      cases hsome
  have hopen : ∀ w, requested = some w → w ∉ st.file.disabledWorkspaces := by
    intro w _
    rw [h.disabled]
    exact List.not_mem_nil
  obtain ⟨row, hsubject, hholds, hcall⟩ :=
    SubjectKeyVault.keyFor_of_absent (A := A) mint hcache hfirst hopen
  have hopens : st.vault.config.Opens st.vault.config requested := Or.inr rfl
  rw [Opening.keyFor, hcall]
  refine ⟨rfl, VaultConfig.Extends.refl _, h.disabled, ⟨row, ?_, hholds⟩, fun got hgot => ?_⟩
  · rw [VaultFile.row?_insertRow, if_pos hsubject.symm]
  · rw [find?_remember, if_pos rfl] at hgot
    cases hgot
    exact ⟨rfl, hopens⟩

theorem Held.keyFor_iff (h : st.Held A first subjectId workspaceId key) {requested : Option String}
    (hsame : assertSameWorkspace subjectId workspaceId requested = .ok ()) (mint : Mint β) :
    (st.keyFor A subjectId requested mint).2 = .ok key
      ↔ first.Opens st.vault.config workspaceId := by
  obtain ⟨row, hrow, rfl, wrapped, hlive, hkeeps⟩ := h.row
  cases hcache : st.vault.cache.find? subjectId with
  | some got =>
    obtain ⟨rfl, hopens⟩ := h.cached got hcache
    have hworkspace : st.file.workspaceOf subjectId = row.workspaceId := by
      rw [VaultFile.workspaceOf, hrow, Option.bind_some]
    rw [Opening.keyFor, SubjectKeyVault.keyFor_of_cached mint hcache (by rw [hworkspace]; exact hsame)]
    exact iff_of_true rfl hopens
  | none =>
    rw [Opening.keyFor, keyFor_of_live mint hcache hrow hlive hsame]
    constructor
    · intro hkey
      split at hkey
      · cases hkey
      · next file vault got hcall =>
          split at hcall
          · cases hcall
          · next got' hunwrap =>
              cases hcall
              exact (VaultConfig.eq_of_unwrap hkeeps hunwrap).2
    · intro hopens
      have hopen : ∀ w, row.workspaceId = some w → w ∉ st.file.disabledWorkspaces := by
        intro w _
        rw [h.disabled]
        exact List.not_mem_nil
      rw [VaultConfig.unwrap_of_keeps hkeeps hopen hopens]

/-- **Configuration growth.** `key_for` answers a subject's first key as long as the key is not
    destroyed, unless the subject was bound to a workspace when only the process had a provider and
    the workspace has got one with another key since. -/
theorem keyFor_survives_iff {config : VaultConfig κ} {pre post : List (OpeningLabel κ β)}
    {requested again : Option String} {mint mint' : Mint β} {fin : Opening κ β}
    (hrun : (openings A).AlongRun (fun st a => st.Grows a ∧ st.Spares subjectId a)
      ⟨{}, ⟨config, KeyedList.empty⟩⟩ (pre ++ .keyFor subjectId requested mint :: post))
    (hpre : (openings A).after ⟨{}, ⟨config, KeyedList.empty⟩⟩ pre = st)
    (hfirst : st.file.row? subjectId = none)
    (hpost : (openings A).after st (.keyFor subjectId requested mint :: post) = fin)
    (hsame : assertSameWorkspace subjectId requested again = .ok ()) :
    ((openings A).step st (.keyFor subjectId requested mint)).2 = some (.ok mint.key)
      ∧ (((openings A).step fin (.keyFor subjectId again mint')).2 = some (.ok mint.key)
        ↔ ¬ st.vault.config.Strands fin.vault.config requested) := by
  have hsound : st.Sound := by
    rw [← hpre]
    exact Machine.after_invariant (fun s a hs _ => hs.step a) ⟨rfl, nofun⟩ hrun.prefix
  obtain ⟨hminted, hheld⟩ := hsound.held_of_keyFor (A := A) hfirst requested mint
  have hrest := hrun.of_append
  rw [hpre] at hrest
  have hfin : fin.Held A st.vault.config subjectId requested mint.key := by
    rw [← hpost]
    show ((openings A).after (st.keyFor A subjectId requested mint).1 post).Held A _ _ _ _
    exact Machine.after_invariant (fun s a hs hC => hs.step hC.1 hC.2) hheld hrest.2
  refine ⟨congrArg some hminted, ?_⟩
  rw [← hfin.grown.opens_iff requested, ← hfin.keyFor_iff hsame mint']
  exact ⟨fun h => Option.some.inj h, fun h => congrArg some h⟩

def processOnly : VaultConfig Nat where
  metaKek := some ⟨1, "LOCAL", by decide⟩

def perWorkspace : VaultConfig Nat where
  metaKek := some ⟨1, "LOCAL", by decide⟩
  workspaceKek := some (fun _ => ⟨2, "local-ws.0", by decide⟩)

theorem processOnly_extends : processOnly.Extends perWorkspace := ⟨fun _ h => h, nofun⟩

theorem keyFor_survives_unbound : ((openings tagAead).step
        ((openings tagAead).after ⟨{}, ⟨processOnly, KeyedList.empty⟩⟩
          [.keyFor "subject" none ⟨[7], 0, "t0"⟩, .openVault perWorkspace])
        (.keyFor "subject" (some "workspace") ⟨[8], 1, "t1"⟩)).2 = some (.ok [7]) := by
  have hrun : (openings tagAead).AlongRun (fun st a => st.Grows a ∧ st.Spares "subject" a)
      ⟨{}, ⟨processOnly, KeyedList.empty⟩⟩
      ([] ++ [.keyFor "subject" none ⟨[7], 0, "t0"⟩, .openVault perWorkspace]) :=
    ⟨⟨trivial, trivial⟩, ⟨processOnly_extends, trivial⟩, trivial⟩
  refine (keyFor_survives_iff hrun rfl rfl rfl rfl).2.2 ?_
  rintro ⟨-, w, -, -, hw, -⟩
  cases hw

/-- The subject was bound to a workspace: its key is lost when the workspaces get a provider. -/
theorem invalidTag_after_growth : processOnly.Extends perWorkspace
      ∧ (openings tagAead).answers ⟨{}, ⟨processOnly, KeyedList.empty⟩⟩
        [.keyFor "subject" (some "workspace") ⟨[7], 0, "t0"⟩, .openVault perWorkspace,
          .keyFor "subject" none ⟨[8], 1, "t1"⟩]
      = [some (.ok [7]), none, some (.error .invalidTag)] :=
  ⟨processOnly_extends, rfl⟩

end Opening

end Himmy
