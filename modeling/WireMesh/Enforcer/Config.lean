import WireMesh.Enforcer.Kernel

-- The limits an operator sets. They are written before the programs are attached.
namespace Enforcer

structure EnforcerConfig where
  tcpIdleS : BitVec 32
  udpIdleS : BitVec 32
  icmpIdleS : BitVec 32
  rateCapPerSrc : BitVec 32
  logPerRule : BitVec 32
  logAggregate : BitVec 32

def writeConfig (cfg : EnforcerConfig) (config : ArrayMap CONFIG_LEN Nat) : ArrayMap CONFIG_LEN Nat :=
  config.set CFG_TCP_NS (cfg.tcpIdleS.toNat * 1000000000)
    |>.set CFG_UDP_NS (cfg.udpIdleS.toNat * 1000000000)
    |>.set CFG_ICMP_NS (cfg.icmpIdleS.toNat * 1000000000)
    |>.set CFG_RATE_CAP cfg.rateCapPerSrc.toNat
    |>.set CFG_LOG_PER_RULE cfg.logPerRule.toNat
    |>.set CFG_LOG_AGGREGATE cfg.logAggregate.toNat

def Maps.configured (m : Maps) (cfg : EnforcerConfig) : Maps :=
  { m with config := writeConfig cfg m.config }

namespace EnforcerConfig

-- A limit of zero stands for the default.
def orDefault (limit : BitVec 32) (default : Nat) : Nat :=
  if limit = 0 then default else limit.toNat

variable (cfg : EnforcerConfig)

def rateCap : Nat := orDefault cfg.rateCapPerSrc DEFAULT_RATE_CAP
def perRuleCap : Nat := orDefault cfg.logPerRule DEFAULT_LOG_PER_RULE
def aggCap : Nat := orDefault cfg.logAggregate DEFAULT_LOG_AGGREGATE

end EnforcerConfig
end Enforcer
