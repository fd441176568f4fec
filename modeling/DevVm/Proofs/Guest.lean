import DevVm.World.Guest

/-!
# What a guest makes of commands

Of all commands only two touch the guest's health, provisioning and forgetting
(`GuestCommand.healthAfter_text`), although the guest goes by a command's text alone.

A guest is *obliging* if no rule prescribes that a command fails or what a health check comes
to. An obliging guest stays so, every command but the health check succeeds, and the health
check tells the truth.
-/

namespace DevVm

/-! ## What commands do to the guest's health -/

/-- Whether the guest is healthy after a command that succeeded. -/
def GuestCommand.healthAfter (healthy : Bool) : GuestCommand → Bool
  | .provision _ => true
  | .forgetHealth => false
  | _ => healthy

theorem head?_toList_append {a b : String} {c : Char} (h : a.toList.head? = some c) :
    (a ++ b).toList.head? = some c := by
  rw [String.toList_append, List.head?_append, h]
  rfl

/-- The commands that touch the guest's health are run with an administrator's rights. -/
theorem World.Guest.healthAfter_of_head {healthy : Bool} {text : String} {c : Char}
    (h : text.toList.head? = some c) (hc : c ≠ 's') : healthAfter healthy text = healthy := by
  unfold healthAfter
  split
  next heq =>
    rw [heq] at h
    exact absurd (Option.some.inj h).symm hc
  next =>
    split
    next hpre =>
      obtain ⟨rest, hrest⟩ := List.isPrefixOf_iff_prefix.mp hpre
      rw [← hrest, List.head?_append] at h
      exact absurd (Option.some.inj h).symm hc
    next => rfl

theorem GuestCommand.configureNetwork_head (ip : String) :
    (configureNetwork ip).text.toList.head? = some 'g' := by
  unfold GuestCommand.text
  iterate 5 apply head?_toList_append
  rfl

theorem GuestCommand.authorizeKey_head (publicKey : String) :
    (authorizeKey publicKey).text.toList.head? = some 'm' := by
  unfold GuestCommand.text
  iterate 3 apply head?_toList_append
  rfl

theorem GuestCommand.writeOptions_head (options : GuestOptions) :
    (writeOptions options).text.toList.head? = some 'e' := by
  unfold GuestCommand.text
  iterate 2 apply head?_toList_append
  rfl

theorem GuestCommand.provision_text (password : String) :
    ∃ rest, (provision password).text = provisioner ++ rest := by
  show ∃ rest, (if password = "" then provisioner
    else provisioner ++ " " ++ Shell.quote password) = provisioner ++ rest
  split
  · exact ⟨"", String.append_empty.symm⟩
  · exact ⟨" " ++ Shell.quote password, String.append_assoc⟩

theorem GuestCommand.provision_head (password : String) :
    (provision password).text.toList.head? = some 's' := by
  obtain ⟨rest, hrest⟩ := provision_text password
  rw [hrest]
  exact head?_toList_append rfl

/-- A command is told by its text: nothing but provisioning and forgetting has the text of
either. -/
theorem GuestCommand.healthAfter_text (healthy : Bool) (command : GuestCommand) :
    World.Guest.healthAfter healthy command.text = command.healthAfter healthy := by
  cases command with
  | configureNetwork ip =>
    exact World.Guest.healthAfter_of_head (configureNetwork_head ip) (by decide)
  | authorizeKey key => exact World.Guest.healthAfter_of_head (authorizeKey_head key) (by decide)
  | writeOptions options =>
    exact World.Guest.healthAfter_of_head (writeOptions_head options) (by decide)
  | provision password =>
    obtain ⟨rest, hrest⟩ := GuestCommand.provision_text password
    have hpre : GuestCommand.provisioner.toList <+:
        (GuestCommand.provision password).text.toList := by
      rw [hrest, String.toList_append]
      exact List.prefix_append _ _
    unfold World.Guest.healthAfter
    rw [if_neg, if_pos (List.isPrefixOf_iff_prefix.mpr hpre)]
    · rfl
    · intro heq
      rw [heq] at hpre
      exact absurd (List.isPrefixOf_iff_prefix.mpr hpre) (by decide)
  | checkHealth => rfl
  | forgetHealth => rfl
  | showCertificate => rfl
  | diagnose what => cases what <;> rfl

/-- No other command is taken for the health check. -/
theorem GuestCommand.text_ne_checkHealth {command : GuestCommand} (h : command ≠ .checkHealth) :
    command.text ≠ checkHealth.text := by
  intro heq
  -- The first letter is enough to tell the health check from all others.
  have hhead : command.text.toList.head? = some 't' := by rw [heq]; rfl
  cases command with
  | configureNetwork ip => exact absurd ((configureNetwork_head ip).symm.trans hhead) (by decide)
  | authorizeKey key => exact absurd ((authorizeKey_head key).symm.trans hhead) (by decide)
  | writeOptions options => exact absurd ((writeOptions_head options).symm.trans hhead) (by decide)
  | provision password => exact absurd ((provision_head password).symm.trans hhead) (by decide)
  | checkHealth => exact h rfl
  | forgetHealth => exact absurd hhead (by decide)
  | showCertificate => exact absurd hhead (by decide)
  | diagnose what => cases what <;> exact absurd hhead (by decide)

/-- Nor is any other command taken for one that gives the guest an address, or for one that gives
it another address. -/
theorem GuestCommand.eq_configureNetwork_of_text {command : GuestCommand} {ip : String}
    (h : command.text = (configureNetwork ip).text) : command = configureNetwork ip := by
  have hhead : command.text.toList.head? = some 'g' := by
    rw [h]
    exact configureNetwork_head ip
  cases command with
  | configureNetwork other =>
    unfold GuestCommand.text at h
    have hfront := (String.append_left_inj _).mp ((String.append_left_inj _).mp h)
    exact congrArg configureNetwork ((String.append_right_inj _).mp hfront)
  | authorizeKey key => exact absurd ((authorizeKey_head key).symm.trans hhead) (by decide)
  | writeOptions options => exact absurd ((writeOptions_head options).symm.trans hhead) (by decide)
  | provision password => exact absurd ((provision_head password).symm.trans hhead) (by decide)
  | checkHealth => exact absurd hhead (by decide)
  | forgetHealth => exact absurd hhead (by decide)
  | showCertificate => exact absurd hhead (by decide)
  | diagnose what => cases what <;> exact absurd hhead (by decide)

namespace World

/-! ## Obliging guests -/

/-- Replies that are left were there before. -/
theorem Replies.mem_of_mem_advance {ρ : Type} {reply : ρ} {replies : List ρ}
    (h : reply ∈ advance replies) : reply ∈ replies := by
  unfold advance at h
  split at h
  · exact List.mem_cons_of_mem _ h
  · exact h

/-- A rule that is not about the health check and by which every command succeeds. -/
def GuestRule.Obliging (rule : GuestRule) : Prop :=
  rule.pattern.fits GuestCommand.checkHealth.text = false ∧
    ∀ reply ∈ rule.replies, reply.status = some 0

/-- A guest whose rules are all obliging. -/
def Guest.Obliging (guest : Guest) : Prop := ∀ rule ∈ guest.rules, rule.Obliging

theorem GuestRule.Obliging.advanced {rule : GuestRule} (h : rule.Obliging) :
    rule.advanced.Obliging :=
  ⟨h.1, fun reply hin => h.2 reply (Replies.mem_of_mem_advance hin)⟩

namespace Guest

variable {guest : Guest} {text : String}

/-- What an obliging guest's rules say: that the command succeeds, and it is not the health
check. -/
theorem pick?_obliging {rules rest : List GuestRule} {reply : GuestReply}
    (hrules : ∀ rule ∈ rules, rule.Obliging) (h : pick? text rules = some (reply, rest)) :
    reply.status = some 0 ∧ text ≠ GuestCommand.checkHealth.text ∧
      ∀ rule ∈ rest, rule.Obliging := by
  induction rules generalizing rest with
  | nil => cases h
  | cons rule more ih =>
    have hrule := hrules rule (List.mem_cons_self ..)
    have hmore : ∀ r ∈ more, r.Obliging := fun r hr => hrules r (List.mem_cons_of_mem _ hr)
    unfold pick? at h
    split at h
    next hfits =>
      obtain ⟨first, hfirst, heq⟩ := Option.map_eq_some_iff.mp h
      obtain ⟨rfl, rfl⟩ := Prod.mk.inj heq
      refine ⟨hrule.2 _ (List.mem_of_mem_head? hfirst), ?_, ?_⟩
      · intro heq
        subst heq
        rw [hrule.1] at hfits
        cases hfits
      · intro r hr
        rcases List.mem_cons.mp hr with rfl | hin
        · exact hrule.advanced
        · exact hmore r hin
    next =>
      obtain ⟨⟨first, rest'⟩, hpicked, heq⟩ := Option.map_eq_some_iff.mp h
      obtain ⟨rfl, rfl⟩ := Prod.mk.inj heq
      obtain ⟨hstatus, htext, hrest⟩ := ih hmore hpicked
      refine ⟨hstatus, htext, fun r hr => ?_⟩
      rcases List.mem_cons.mp hr with rfl | hin
      · exact hrule
      · exact hrest r hin

/-- An obliging guest stays obliging. -/
theorem Obliging.answer (h : guest.Obliging) : (guest.answer text).2.Obliging := by
  unfold Guest.answer
  rcases hp : pick? text guest.rules with _ | ⟨reply, rest⟩
  · exact h
  · exact (pick?_obliging h hp).2.2

/-- With an obliging guest every command succeeds, except that a health check of a guest that
is not healthy fails. -/
theorem Obliging.status (h : guest.Obliging) :
    (guest.answer text).1.status = some 0 ↔
      (text = GuestCommand.checkHealth.text → guest.healthy = true) := by
  unfold Guest.answer
  rcases hp : pick? text guest.rules with _ | ⟨reply, rest⟩
  · show (guest.plainReply text).status = some 0 ↔ _
    unfold plainReply
    by_cases htext : text = GuestCommand.checkHealth.text
    · cases hhealth : guest.healthy <;> simp [htext]
    · simp [htext]
  · obtain ⟨hstatus, htext, -⟩ := pick?_obliging h hp
    exact ⟨fun _ heq => absurd heq htext, fun _ => hstatus⟩

/-- A command has its effect on the guest's health if it succeeds, and none otherwise. -/
theorem answer_healthy : (guest.answer text).2.healthy =
    if (guest.answer text).1.status = some 0 then healthAfter guest.healthy text
    else guest.healthy := rfl

end Guest

end World

end DevVm
