/-!
# Directories known beforehand

Some directories hold the same names on every machine: the devices, the tables of the system and the
usual commands, which are ordinary directories, and the views of the kernel on processes, settings and
hardware, in which nothing can be made. Only names that are never missing are listed.
-/

namespace RawMemory

/-- What a directory is known to hold. -/
structure Listing where
  /-- The names on the way from the root to the directory. -/
  path : List String
  /-- The directories in it. -/
  directories : List String
  /-- What is in it and is no directory. -/
  files : List String
deriving DecidableEq

namespace Listing

/-- Ordinary directories. -/
def ordinary : List Listing :=
  [⟨["dev"], ["pts"],
      ["null", "zero", "full", "random", "urandom", "tty", "console", "ptmx", "kmsg", "stdin", "stdout",
        "stderr"]⟩,
    ⟨["etc"], [],
      ["passwd", "group", "shadow", "gshadow", "hosts", "hostname", "resolv.conf", "nsswitch.conf",
        "host.conf", "ld.so.cache", "ld.so.conf", "os-release", "issue", "localtime",
        "login.defs", "profile", "environment", "shells", "fstab"]⟩,
    ⟨["usr", "bin"], [],
      ["sh", "bash", "dash", "env", "true", "false", "echo", "cat", "ls", "cp", "mv", "rm", "ln", "mkdir",
        "rmdir", "touch", "chmod", "chown", "dd", "df", "du", "date", "sleep", "head", "tail", "sort",
        "uniq", "wc", "tr", "cut", "tee", "test", "id", "whoami", "uname", "pwd", "sed", "grep", "find",
        "tar", "gzip", "perl"]⟩]

/-- The terminals in use, of which only their multiplexer is known. -/
def terminals : Listing := ⟨["dev", "pts"], [], ["ptmx"]⟩

/-- The view on the hardware. -/
def hardware : List Listing :=
  [⟨["sys"],
      ["block", "bus", "class", "dev", "devices", "firmware", "fs", "kernel", "module", "power"], []⟩,
    ⟨["sys", "class"], ["block", "mem", "misc", "net", "tty"], []⟩,
    ⟨["sys", "devices"], ["platform", "system", "virtual"], []⟩,
    ⟨["sys", "devices", "system"], ["cpu", "memory"], []⟩,
    ⟨["sys", "kernel"], ["mm"], []⟩]

/-- The directory of a thread, and those in it. -/
def thread (path : List String) : List Listing :=
  [⟨path, ["attr", "fd", "fdinfo", "net", "ns"],
      ["auxv", "cgroup", "clear_refs", "cmdline", "comm", "cpuset", "environ", "exe", "gid_map", "io",
        "limits", "loginuid", "maps", "mem", "mountinfo", "mounts", "numa_maps", "oom_adj", "oom_score",
        "oom_score_adj", "pagemap", "personality", "projid_map", "sched", "schedstat", "sessionid",
        "setgroups", "smaps", "smaps_rollup", "stack", "stat", "statm", "status", "syscall", "uid_map",
        "wchan"]⟩,
    ⟨path ++ ["attr"], [], ["current", "exec", "fscreate", "keycreate", "prev", "sockcreate"]⟩,
    ⟨path ++ ["fd"], [], ["0", "1", "2"]⟩,
    ⟨path ++ ["fdinfo"], [], ["0", "1", "2"]⟩,
    ⟨path ++ ["net"], ["netfilter", "stat"],
      ["arp", "dev", "dev_mcast", "if_inet6", "igmp", "netlink", "netstat", "packet", "protocols",
        "psched", "ptype", "raw", "raw6", "route", "snmp", "snmp6", "sockstat", "sockstat6",
        "softnet_stat", "tcp", "tcp6", "udp", "udp6", "unix"]⟩,
    ⟨path ++ ["ns"], [], ["cgroup", "ipc", "mnt", "net", "pid", "pid_for_children", "user", "uts"]⟩]

/-- The directory of a process, which has what that of a thread has and some things more. -/
def process (path : List String) : List Listing :=
  ⟨path, ["map_files", "task"], ["autogroup", "coredump_filter", "mountstats", "timers"]⟩ :: thread path

/-- The path of this process. -/
def thisProcess : List String := ["proc", "self"]

/-- The path of the only thread of this process; its name is a number that is not known. -/
def thisThread : List String := thisProcess ++ ["task", ""]

/-- The view on processes and settings. -/
def processes : List Listing :=
  [⟨["proc"],
      ["1", "acpi", "bus", "driver", "fs", "irq", "pressure", "self", "sys", "sysvipc", "tty"],
      ["buddyinfo", "cgroups", "cmdline", "consoles", "cpuinfo", "crypto", "devices", "diskstats", "dma",
        "execdomains", "filesystems", "interrupts", "iomem", "ioports", "kallsyms", "key-users", "keys",
        "kmsg", "loadavg", "locks", "meminfo", "misc", "mounts", "pagetypeinfo", "partitions",
        "slabinfo", "softirqs", "stat", "swaps", "timer_list", "uptime", "version", "vmallocinfo",
        "vmstat", "zoneinfo"]⟩,
    ⟨["proc", "pressure"], [], ["cpu", "io", "memory"]⟩,
    ⟨["proc", "sysvipc"], [], ["msg", "sem", "shm"]⟩,
    ⟨["proc", "tty"], ["driver", "ldisc"], ["drivers", "ldiscs"]⟩,
    ⟨["proc", "sys"], ["abi", "debug", "dev", "fs", "kernel", "net", "user", "vm"], []⟩,
    ⟨["proc", "sys", "fs"], ["epoll", "inotify", "mqueue"],
      ["aio-max-nr", "aio-nr", "dentry-state", "file-max", "file-nr", "inode-nr", "inode-state",
        "mount-max", "nr_open", "overflowgid", "overflowuid", "pipe-max-size"]⟩,
    ⟨["proc", "sys", "kernel"], ["keys", "pty", "random"],
      ["cap_last_cap", "core_pattern", "core_uses_pid", "dmesg_restrict", "domainname", "hostname",
        "msgmax", "msgmnb", "msgmni", "ngroups_max", "osrelease", "ostype", "panic", "pid_max", "printk",
        "randomize_va_space", "sem", "shmall", "shmmax", "shmmni", "tainted", "threads-max", "version"]⟩,
    ⟨["proc", "sys", "kernel", "random"], [], ["boot_id", "entropy_avail", "poolsize", "uuid"]⟩,
    ⟨["proc", "sys", "net"], ["core", "ipv4", "ipv6", "unix"], []⟩,
    ⟨["proc", "sys", "vm"], [],
      ["drop_caches", "max_map_count", "min_free_kbytes", "nr_hugepages", "overcommit_memory",
        "overcommit_ratio", "swappiness", "vfs_cache_pressure"]⟩] ++
    process thisProcess ++ [⟨thisProcess ++ ["task"], [""], []⟩] ++ thread thisThread ++
    process ["proc", "1"]

/-- All directories that are known. -/
def all : List Listing := ordinary ++ [terminals] ++ hardware ++ processes

/-- Whether one of the lists that `select` takes from a directory holds the end of a path, given by its
names with the last one first. -/
def holds (select : Listing → List String) : List String → Bool
  | [] => false
  | name :: before => all.any fun l => l.path = before.reverse && (select l).contains name

end Listing

end RawMemory
