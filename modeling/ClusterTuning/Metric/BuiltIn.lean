import ClusterTuning.Experiment

/-!
# Built-in metrics

The metrics that the bundled monitoring of a cluster provides.
-/

namespace ClusterTuning.Metric.BuiltIn

/-- The address of the bundled monitoring in a namespace, which may be a template. -/
def address (ns : String) : String :=
  "http://rso-prometheus." ++ ns ++ ":9090"

/-- The pods of a trial that are running. -/
def runningPods (indent : String) : List String :=
  ["sum(",
    "  sum(kube_pod_container_status_running == 1) by (pod)",
    "  *",
    "  on (pod) group_left kube_pod_labels\x7b\x7brsoTargetLabel .Trial\x7d\x7d",
    ") by (pod)",
    "*"].map (indent ++ ·)

/-- The query for the share of the processor limits that the pods of a trial use. -/
def cpuUtilizationQuery : String :=
  "\n" ++ String.join ((
    ["scalar(",
      "  sum("] ++
    runningPods "    " ++
    ["    on (pod) group_right max(container_cpu_usage_seconds_total" ++
        "\x7bcontainer=\"\", image=\"\"\x7d) by (pod)",
      "  )",
      "  /",
      "  sum("] ++
    runningPods "    " ++
    ["    on (pod) group_left sum_over_time(kube_pod_container_resource_limits_cpu_cores[1h:1s])",
      "  )",
      ")"]).map (· ++ "\n"))

/-- The metric for the use of the processor. -/
def cpuUtilization : Metric :=
  { name := "rso cpu utilization", kind := some .builtIn, query := cpuUtilizationQuery,
    url := some (address "\x7b\x7b .Trial.Namespace \x7d\x7d") }

/-- Every built-in metric. -/
def all : List Metric :=
  [cpuUtilization]

end ClusterTuning.Metric.BuiltIn
