/-!
# The step plans of bare-metal deployments

`StepDefinition` and the registries of `backend/services/bare_metal/orchestrator.py:24–312`, without
what only the preview reads: durations, prerequisites and whether a step is idempotent.
-/

namespace BnkForge.BareMetal

/-- `DeploymentPhase`. -/
inductive DeploymentPhase
  | phase1Dpu
  | phase2K8s
  | phase3Join
  | phase4Platform
  deriving DecidableEq, Repr

def DeploymentPhase.value : DeploymentPhase → String
  | .phase1Dpu => "phase_1_dpu"
  | .phase2K8s => "phase_2_k8s"
  | .phase3Join => "phase_3_join"
  | .phase4Platform => "phase_4_platform"

structure StepDefinition where
  phase : DeploymentPhase
  name : String
  description : String
  connectivityRisk : Bool := false
  connectivityMechanism : Option String := none

def regularSteps : List StepDefinition :=
  [{ phase := .phase1Dpu, name := "probe_dpu_state", description := "Probe DPU current state" },
    { phase := .phase1Dpu, name := "flash_dpu", description := "Flash DPU with BFB image" },
    { phase := .phase1Dpu, name := "wait_dpu_ready",
      description := "Wait for DPU to become SSH-reachable" },
    { phase := .phase1Dpu, name := "install_dpu_prereqs",
      description := "Install containerd, runc, kubeadm on DPU" },
    { phase := .phase2K8s, name := "install_k8s_prereqs",
      description := "Install kubeadm, kubelet, kubectl on host" },
    { phase := .phase2K8s, name := "kubeadm_init", description := "Initialize K8s control plane" },
    { phase := .phase2K8s, name := "install_cni", description := "Install Calico CNI" },
    { phase := .phase2K8s, name := "install_cert_manager", description := "Install cert-manager" },
    { phase := .phase2K8s, name := "install_sriov",
      description := "Install SR-IOV network operator" },
    { phase := .phase2K8s, name := "install_multus", description := "Install Multus CNI" },
    { phase := .phase2K8s, name := "install_storage",
      description := "Install storage provisioner" },
    { phase := .phase3Join, name := "kubeadm_join", description := "Join DPU node to cluster" },
    { phase := .phase3Join, name := "label_dpu_node",
      description := "Label DPU node (app=f5-tmm)" },
    { phase := .phase3Join, name := "taint_dpu_node",
      description := "Taint DPU node (dpu=true:NoSchedule)" },
    { phase := .phase4Platform, name := "install_flo", description := "Install FLO via Helm" },
    { phase := .phase4Platform, name := "deploy_bnk_cr",
      description := "Deploy BNK CR (CNEInstance)" },
    { phase := .phase4Platform, name := "install_cwc_certs",
      description := "Install CWC certificates" },
    { phase := .phase4Platform, name := "install_otel_certs",
      description := "Install OTEL certificates" },
    { phase := .phase4Platform, name := "deploy_observability",
      description := "Deploy observability stack" }]

/-- `_SHARED_PHASE_2_4`. -/
def sharedPhase24 : List StepDefinition := regularSteps.drop 4

def bf3Steps : List StepDefinition :=
  [{ phase := .phase1Dpu, name := "probe_dpu_state", description := "Probe DPU current state" },
    { phase := .phase1Dpu, name := "stage_vf_netplan",
      description := "Pre-stage VF netplan config" },
    { phase := .phase1Dpu, name := "install_fallback_timer",
      description := "Install connectivity fallback timer" },
    { phase := .phase1Dpu, name := "flash_dpu",
      description := "Flash DPU with BFB image (mode change via bfb_post_install)",
      connectivityRisk := true, connectivityMechanism := some "pre_staged_netplan" },
    { phase := .phase1Dpu, name := "wait_connectivity_restore",
      description := "Wait for host connectivity via VF" },
    { phase := .phase1Dpu, name := "install_dpu_prereqs",
      description := "Install containerd, runc, kubeadm on DPU" }] ++ sharedPhase24

def bf3IpmiSteps : List StepDefinition :=
  [{ phase := .phase1Dpu, name := "probe_dpu_state", description := "Probe DPU current state" },
    { phase := .phase1Dpu, name := "set_nic_mode_mlxconfig",
      description := "Set NIC mode via mlxconfig" },
    { phase := .phase1Dpu, name := "deposit_phase_c",
      description := "Deposit Phase C bootstrap service" },
    { phase := .phase1Dpu, name := "ipmi_power_cycle", description := "IPMI cold boot",
      connectivityRisk := true, connectivityMechanism := some "phase_c_bootstrap" },
    { phase := .phase1Dpu, name := "wait_connectivity_restore",
      description := "Wait for host connectivity via VF" },
    { phase := .phase1Dpu, name := "flash_dpu", description := "Flash DPU with BFB image",
      connectivityRisk := true, connectivityMechanism := some "post_flash_watcher" },
    { phase := .phase1Dpu, name := "wait_dpu_ready",
      description := "Wait for DPU to become SSH-reachable" },
    { phase := .phase1Dpu, name := "install_dpu_prereqs",
      description := "Install containerd, runc, kubeadm on DPU" }] ++ sharedPhase24

def bmcSteps : List StepDefinition :=
  [{ phase := .phase1Dpu, name := "probe_dpu_state", description := "Probe DPU current state" },
    { phase := .phase1Dpu, name := "set_nic_mode_redfish",
      description := "Set NIC mode via Redfish BIOS attribute" },
    { phase := .phase1Dpu, name := "deposit_phase_c",
      description := "Deposit Phase C bootstrap service" },
    { phase := .phase1Dpu, name := "redfish_cold_boot",
      description := "Redfish cold boot (GracefulShutdown → On)",
      connectivityRisk := true, connectivityMechanism := some "phase_c_bootstrap" },
    { phase := .phase1Dpu, name := "wait_connectivity_restore",
      description := "Wait for host connectivity via VF" },
    { phase := .phase1Dpu, name := "flash_dpu", description := "Flash DPU with BFB image",
      connectivityRisk := true, connectivityMechanism := some "post_flash_watcher" },
    { phase := .phase1Dpu, name := "wait_dpu_ready",
      description := "Wait for DPU to become SSH-reachable" },
    { phase := .phase1Dpu, name := "install_dpu_prereqs",
      description := "Install containerd, runc, kubeadm on DPU" }] ++ sharedPhase24

def dualDpuObmcSteps : List StepDefinition :=
  [{ phase := .phase1Dpu, name := "probe_dpu_state",
      description := "Probe DPU current state (multi-DPU + BMC rshim)" },
    { phase := .phase1Dpu, name := "flash_dpu",
      description := "Flash DPU via BMC rshim (SFTP to /dev/rshim0/boot)" },
    { phase := .phase1Dpu, name := "wait_dpu_ready",
      description := "Wait for DPU reachable via IPv6 link-local on host PF" },
    { phase := .phase1Dpu, name := "setup_dpu_networking",
      description := "Configure DPU internet access via IPv6 link-local NAT through host" },
    { phase := .phase1Dpu, name := "install_dpu_prereqs",
      description := "Install containerd, runc, kubeadm on DPU" }] ++ sharedPhase24

abbrev TopologySteps := List (String × List StepDefinition)

/-- `TOPOLOGY_STEPS`. -/
def topologySteps : TopologySteps :=
  [("regular", regularSteps), ("bf3", bf3Steps), ("bf3_ipmi", bf3IpmiSteps), ("bmc", bmcSteps),
    ("dual_dpu_obmc", dualDpuObmcSteps)]

/-- What `create_deployment` and the calls after it raise. -/
inductive ServiceError
  /-- `NotFoundError`. -/
  | notFound (entity : String) (ids : List Int)
  /-- `BadRequestError`. -/
  | badRequest (message : String)
  /-- `ValueError`. -/
  | value (message : String)
  deriving DecidableEq, Repr

/-- `get_steps_for_topology`. -/
def getStepsForTopology (plans : TopologySteps) (topology : String) :
    Except ServiceError (List StepDefinition) :=
  match plans.lookup topology with
  | some steps => .ok steps
  | none => .error (.value ("Unknown topology: " ++ topology ++ ". Valid: [" ++
      ", ".intercalate (plans.map fun plan ↦ "'" ++ plan.1 ++ "'") ++ "]"))

/-- `_determine_selected_steps`: the names of the selected steps. -/
def determineSelectedSteps (stepDefs : List StepDefinition)
    (selectedPhases selectedSteps : Option (List String)) : List String :=
  match selectedSteps, selectedPhases with
  | some names, _ => names
  | none, some phases =>
    (stepDefs.filter fun s ↦ phases.contains s.phase.value).map StepDefinition.name
  | none, none => stepDefs.map StepDefinition.name

end BnkForge.BareMetal
